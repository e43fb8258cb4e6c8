import Mathlib.Data.List.Basic
import Mathlib.Data.List.TakeDrop

/-!
# Chunked input streams

A stream hands its symbols over in chunks whose sizes the reader does not choose.  An empty
read is how the end of the stream is reported, so a chunk is never empty.  `readExact` fills a
buffer across chunk boundaries the way an asynchronous reader does; the point of this file is
that it depends on the chunks only through their concatenation (`readExact_spec`,
`exists_readExact`).
-/

/-- What a stream has still to deliver. -/
structure ChunkStream (α : Type*) where
  chunks : List (List α)
  chunks_ne_nil : ∀ c ∈ chunks, c ≠ []

namespace ChunkStream

open List

variable {α : Type*}

def content (r : ChunkStream α) : List α := r.chunks.flatten

/-- The loop of `readExact`: take whole chunks while they fit, and split the last one. -/
def takeChunks : List (List α) → ℕ → Option (List α × List (List α))
  | cs, 0 => some ([], cs)
  | [], _ + 1 => none
  | c :: cs, n + 1 =>
    if c.length ≤ n + 1 then
      (takeChunks cs (n + 1 - c.length)).map fun p => (c ++ p.1, p.2)
    else some (c.take (n + 1), c.drop (n + 1) :: cs)

lemma takeChunks_ne_nil : ∀ (cs : List (List α)) (n : ℕ) {buf : List α} {cs' : List (List α)},
    (∀ c ∈ cs, c ≠ []) → takeChunks cs n = some (buf, cs') → ∀ c ∈ cs', c ≠ []
  | cs, 0, _, _, hcs, h => by
      obtain ⟨-, rfl⟩ := Prod.mk.inj (Option.some.inj (by simpa [takeChunks] using h))
      exact hcs
  | [], _ + 1, _, _, _, h => by simp [takeChunks] at h
  | c :: cs, n + 1, buf, cs', hcs, h => by
      rw [takeChunks] at h
      split_ifs at h with hle
      · obtain ⟨⟨b, rest⟩, hb, hp⟩ := Option.map_eq_some_iff.mp h
        obtain ⟨-, rfl⟩ := Prod.mk.inj hp
        exact takeChunks_ne_nil cs _ (fun d hd => hcs d (mem_cons_of_mem _ hd)) hb
      · obtain ⟨-, rfl⟩ := Prod.mk.inj (Option.some.inj h)
        intro d hd
        rcases mem_cons.mp hd with rfl | hd
        · simp only [ne_eq, drop_eq_nil_iff, Nat.not_le]
          omega
        · exact hcs d (mem_cons_of_mem _ hd)

/-- Fill a buffer of `n` symbols, `none` when the stream ends first. -/
def readExact (r : ChunkStream α) (n : ℕ) : Option (List α × ChunkStream α) :=
  match h : takeChunks r.chunks n with
  | none => none
  | some (buf, cs) => some (buf, ⟨cs, takeChunks_ne_nil r.chunks n r.chunks_ne_nil h⟩)

lemma takeChunks_flatten : ∀ (cs : List (List α)) (n : ℕ),
    (takeChunks cs n).map (fun p => (p.1, p.2.flatten)) =
      if n ≤ cs.flatten.length then some (cs.flatten.take n, cs.flatten.drop n) else none
  | cs, 0 => by simp [takeChunks]
  | [], n + 1 => by simp [takeChunks]
  | c :: cs, n + 1 => by
      rw [takeChunks]
      split_ifs with hle hl hl
      · have ih := takeChunks_flatten cs (n + 1 - c.length)
        rw [flatten_cons, length_append] at hl
        rw [if_pos (by omega)] at ih
        obtain ⟨⟨b, rest⟩, hb, hp⟩ := Option.map_eq_some_iff.mp ih
        obtain ⟨hb1, hb2⟩ := Prod.mk.inj hp
        rw [hb]
        simp only [Option.map_some, flatten_cons, Option.some.injEq, Prod.mk.injEq]
        dsimp only at hb1 hb2
        rw [hb1, hb2, take_append, drop_append, take_of_length_le hle,
          drop_eq_nil_of_le hle, nil_append]
        exact ⟨rfl, rfl⟩
      · have ih := takeChunks_flatten cs (n + 1 - c.length)
        rw [flatten_cons, length_append] at hl
        rw [if_neg (by omega), Option.map_eq_none_iff] at ih
        rw [ih]
        rfl
      · simp only [Option.map_some, flatten_cons, Option.some.injEq, Prod.mk.injEq]
        rw [take_append_of_le_length (by omega), drop_append_of_le_length (by omega)]
        exact ⟨rfl, rfl⟩
      · rw [flatten_cons, length_append] at hl
        omega

/-- **Reading does not see the chunk boundaries.** -/
lemma readExact_spec {r r' : ChunkStream α} {n : ℕ} {buf : List α}
    (h : r.readExact n = some (buf, r')) : n = buf.length ∧ r.content = buf ++ r'.content := by
  have hf := takeChunks_flatten r.chunks n
  unfold readExact at h
  split at h
  · cases h
  · rename_i b cs hcs
    obtain ⟨rfl, rfl⟩ := Prod.mk.inj (Option.some.inj h)
    rw [hcs] at hf
    split_ifs at hf with hle
    · obtain ⟨h1, h2⟩ := Prod.mk.inj (Option.some.inj hf)
      dsimp only at h1 h2
      refine ⟨by rw [h1, length_take, Nat.min_eq_left hle], ?_⟩
      change r.chunks.flatten = b ++ cs.flatten
      rw [h1, h2, take_append_drop]
    · cases hf

lemma exists_readExact {r : ChunkStream α} {buf rest : List α} (h : r.content = buf ++ rest) :
    ∃ r', r.readExact buf.length = some (buf, r') ∧ r'.content = rest := by
  have hf := takeChunks_flatten r.chunks buf.length
  change r.chunks.flatten = buf ++ rest at h
  rw [h, if_pos (by simp), take_left, drop_left] at hf
  obtain ⟨⟨b, cs⟩, hcs, hp⟩ := Option.map_eq_some_iff.mp hf
  cases hp
  refine ⟨⟨cs, takeChunks_ne_nil r.chunks _ r.chunks_ne_nil hcs⟩, ?_, rfl⟩
  unfold readExact
  split
  · rename_i hn
    rw [hcs] at hn
    cases hn
  · rename_i b' cs' hcs'
    rw [hcs] at hcs'
    cases Option.some.inj hcs'
    rfl

end ChunkStream
