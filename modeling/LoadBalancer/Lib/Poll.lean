import Mathlib.Data.List.Basic

/-!
# Polled streams

A reader of an asynchronous stream polls it at instants of its own choice.  A poll answers with an
item, an error, the end of the stream, or with `pending` when there is nothing yet.  `readPolls`
is what a reader gets that polls at given instants until the stream ends or fails.

`Arrivals` is the stream of what a peer will send and when.  Streams are wrapped in other streams
that check or time what passes through; `readPolls_of_delivers` is the rule by which such a
wrapper is shown to deliver what its source delivers.
-/

/-- The answer of a computation that may not be ready. -/
inductive Poll (α : Type*)
  | pending
  | ready (value : α)
  deriving DecidableEq, Repr

/-- A stream of items in `α` that fails with errors in `ε`. -/
class PolledStream (σ : Type*) (α ε : outParam (Type*)) where
  poll : σ → ℕ → σ × Poll (Option (Except ε α))

/-- What a reader got out of a stream: all of it, with the instant at which it saw the end; some
of it and then an error; or some of it, when it stopped polling. -/
inductive Reading (α ε : Type*)
  | complete (items : List α) (done : ℕ)
  | failed (items : List α) (error : ε) (done : ℕ)
  | unfinished (items : List α)
  deriving DecidableEq, Repr

namespace Reading

variable {α ε : Type*}

def items : Reading α ε → List α
  | complete items _ => items
  | failed items _ _ => items
  | unfinished items => items

def push (a : α) : Reading α ε → Reading α ε
  | complete items done => complete (a :: items) done
  | failed items error done => failed (a :: items) error done
  | unfinished items => unfinished (a :: items)

@[simp]
lemma items_push (a : α) (r : Reading α ε) : (r.push a).items = a :: r.items := by
  cases r <;> rfl

end Reading

section

variable {σ α ε : Type*} [PolledStream σ α ε]

def readPolls : List ℕ → σ → σ × Reading α ε
  | [], s => (s, .unfinished [])
  | now :: polls, s =>
    match PolledStream.poll s now with
    | (s', .pending) => readPolls polls s'
    | (s', .ready none) => (s', .complete [] now)
    | (s', .ready (some (.error e))) => (s', .failed [] e now)
    | (s', .ready (some (.ok a))) => ((readPolls polls s').1, (readPolls polls s').2.push a)

/-- The answer to a poll at `now` of a stream of which `items` are still to come: the next item or
the end, or nothing yet if it is before the instant `bound`.  `D` relates the states of the stream
to what is still to come of it. -/
inductive Delivery (D : σ → List α → Prop) (bound now : ℕ) :
    List α → σ × Poll (Option (Except ε α)) → Prop
  | pending {s : σ} {items : List α} :
      now < bound → D s items → Delivery D bound now items (s, .pending)
  | item {s : σ} {a : α} {items : List α} :
      D s items → Delivery D bound now (a :: items) (s, .ready (some (.ok a)))
  | done {s : σ} : Delivery D bound now [] (s, .ready none)

/-- Streams in states related by `D` deliver what is still to come of them, when polled from the
instant `since` on. -/
def Delivers (D : σ → List α → Prop) (since bound : ℕ) : Prop :=
  ∀ ⦃s items now⦄, since ≤ now → D s items → Delivery D bound now items (PolledStream.poll s now)

/-- A reader that keeps polling gets everything that is still to come: one poll for each item and
one for the end, at or after the instant from which no poll is pending, are enough. -/
theorem readPolls_of_delivers {D : σ → List α → Prop} {since bound : ℕ}
    (hD : Delivers D since bound) {polls : List ℕ} {s : σ} {items : List α} (hs : D s items)
    (hsi : ∀ now ∈ polls, since ≤ now)
    (hp : items.length < (polls.filter (bound ≤ ·)).length) :
    ∃ done ∈ polls, (readPolls polls s).2 = .complete items done := by
  induction polls generalizing s items with
  | nil => simp at hp
  | cons now polls ih =>
    obtain ⟨hn, hre⟩ := List.forall_mem_cons.mp hsi
    have hd := hD hn hs
    unfold readPolls
    generalize PolledStream.poll s now = answer at hd ⊢
    cases hd with
    | pending hlt hs' =>
      rw [List.filter_cons_of_neg (by simpa using hlt)] at hp
      obtain ⟨done, hdo, hr⟩ := ih hs' hre hp
      exact ⟨done, List.mem_cons_of_mem now hdo, hr⟩
    | @item s' a rest hs' =>
      have hl : rest.length < (polls.filter (bound ≤ ·)).length := by
        rw [List.filter_cons] at hp
        split_ifs at hp <;> simp only [List.length_cons] at hp <;> omega
      obtain ⟨done, hdo, hr⟩ := ih hs' hre hl
      exact ⟨done, List.mem_cons_of_mem now hdo, by dsimp only; rw [hr, Reading.push]⟩
    | done => exact ⟨now, List.mem_cons_self, rfl⟩

end

/-! ## What a peer sends -/

/-- What a peer will send and when: items, errors, and its end as `none`.  A peer that has nothing
more to send and has not ended has stalled. -/
structure Arrivals (α ε : Type*) where
  events : List (ℕ × Option (Except ε α))
  deriving DecidableEq

namespace Arrivals

variable {α ε : Type*}

def poll (a : Arrivals α ε) (now : ℕ) : Arrivals α ε × Poll (Option (Except ε α)) :=
  match a.events with
  | [] => (a, .pending)
  | (t, event) :: rest => if t ≤ now then (⟨rest⟩, .ready event) else (a, .pending)

instance : PolledStream (Arrivals α ε) α ε := ⟨poll⟩

variable {now t : ℕ} {event : Option (Except ε α)} {rest : List (ℕ × Option (Except ε α))}

lemma poll_of_le (h : t ≤ now) :
    PolledStream.poll (Arrivals.mk ((t, event) :: rest)) now = (⟨rest⟩, .ready event) :=
  if_pos h

lemma poll_of_lt (h : now < t) :
    PolledStream.poll (Arrivals.mk ((t, event) :: rest)) now = (⟨(t, event) :: rest⟩, .pending) :=
  if_neg (by omega)

/-- The peer sends the items and then its end. -/
inductive Brings : List (ℕ × Option (Except ε α)) → List α → Prop
  | done {t : ℕ} : Brings [(t, none)] []
  | item {t : ℕ} {a : α} {events : List (ℕ × Option (Except ε α))} {items : List α} :
      Brings events items → Brings ((t, some (.ok a)) :: events) (a :: items)

/-- The items are the first that the peer sends, and `later` is what it sends after them. -/
inductive Takes : List (ℕ × Option (Except ε α)) → List α → List (ℕ × Option (Except ε α)) → Prop
  | here {events : List (ℕ × Option (Except ε α))} : Takes events [] events
  | item {t : ℕ} {a : α} {events later : List (ℕ × Option (Except ε α))} {items : List α} :
      Takes events items later → Takes ((t, some (.ok a)) :: events) (a :: items) later

variable {events later : List (ℕ × Option (Except ε α))}

/-- What is still to come of a body that arrives whole. -/
lemma Brings.after_takes {items taken : List α} (hb : Brings events items)
    (ht : Takes events taken later) : ∃ rest, items = taken ++ rest ∧ Brings later rest := by
  induction ht generalizing items with
  | here => exact ⟨items, rfl, hb⟩
  | item _ ih =>
    cases hb with
    | item hr =>
      obtain ⟨rest, rfl, hl⟩ := ih hr
      exact ⟨rest, rfl, hl⟩

def latest (events : List (ℕ × Option (Except ε α))) : ℕ :=
  (events.map Prod.fst).foldr max 0

lemma latest_cons (e : ℕ × Option (Except ε α)) (events : List (ℕ × Option (Except ε α))) :
    latest (e :: events) = max e.1 (latest events) :=
  rfl

lemma latest_le_of_takes {items : List α} (h : Takes events items later) :
    latest later ≤ latest events := by
  induction h with
  | here => exact Nat.le_refl _
  | item _ ih => exact Nat.le_trans ih (Nat.le_max_right _ _)

/-- What is to come of a peer that sends items and its end by the instant `bound`. -/
def BringsBy (bound : ℕ) (a : Arrivals α ε) (items : List α) : Prop :=
  Brings a.events items ∧ latest a.events ≤ bound

lemma delivers_bringsBy (since bound : ℕ) :
    Delivers (BringsBy (α := α) (ε := ε) bound) since bound := by
  rintro ⟨events⟩ items now - ⟨hb, hl⟩
  cases hb with
  | @done t =>
    rw [latest_cons] at hl
    rcases Nat.lt_or_ge now t with he | ha
    · rw [poll_of_lt he]
      exact .pending (by omega) ⟨.done, hl⟩
    · rw [poll_of_le ha]
      exact .done
  | @item t a events items hr =>
    rw [latest_cons] at hl
    rcases Nat.lt_or_ge now t with he | ha
    · rw [poll_of_lt he]
      exact .pending (by omega) ⟨.item hr, hl⟩
    · rw [poll_of_le ha]
      exact .item ⟨hr, by dsimp only; omega⟩

end Arrivals
