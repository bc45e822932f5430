import Mathlib.Data.List.Basic
import Mathlib.Data.Nat.Notation

/-!
# Reading a list in chunks

A loop over chunks of `c` elements starts a chunk at every multiple of `c` below the length of the list. The
elements of a chunk have their positions in the list, that of its start and the ones behind it. Put together,
the chunks are the list with the positions of its elements (`flatMap_starts`), whatever their size.
-/

namespace ApexChainx.Lib.Chunks

variable {α : Type*} (c : ℕ)

/-- Where the chunks of `n` elements start. -/
def starts (n : ℕ) : List ℕ := List.range' 0 ((n + c - 1) / c) c

/-- The elements from `start` on. -/
def chunk (xs : List α) (start : ℕ) : List α := (xs.drop start).take c

/-- The elements of a chunk, with their positions. -/
def positioned (xs : List α) (start : ℕ) : List (α × ℕ) := (chunk c xs start).zipIdx start

/-- A chunk and the elements behind it. -/
theorem positioned_append (xs : List α) (start k : ℕ) :
    positioned c xs start ++ positioned k xs (start + c) = positioned (c + k) xs start := by
  unfold positioned chunk
  rw [List.take_add, List.zipIdx_append, List.drop_drop]
  rcases Nat.le_total c (xs.length - start) with hfull | hshort
  · rw [List.length_take, List.length_drop, Nat.min_eq_left hfull]
  · -- a chunk that is not full is the last one
    have hrest : xs.drop (start + c) = [] := by
      apply List.drop_eq_nil_of_le
      omega
    rw [hrest, List.take_nil, List.zipIdx_nil, List.zipIdx_nil]

/-- Chunks one after another are one long chunk. -/
theorem flatMap_range' (xs : List α) (m start : ℕ) :
    (List.range' start m c).flatMap (positioned c xs) = positioned (m * c) xs start := by
  induction m generalizing start with
  | zero => simp [positioned, chunk]
  | succ m ih =>
      rw [List.range'_succ, List.flatMap_cons, ih, positioned_append, Nat.succ_mul, Nat.add_comm c]

variable {c}

theorem le_count_mul (hc : 0 < c) (n : ℕ) : n ≤ (n + c - 1) / c * c := by
  have hdiv := Nat.div_add_mod (n + c - 1) c
  have hmod := Nat.mod_lt (n + c - 1) hc
  rw [Nat.mul_comm] at hdiv
  omega

/-- The chunks are the list. -/
theorem flatMap_starts (hc : 0 < c) (xs : List α) :
    (starts c xs.length).flatMap (positioned c xs) = xs.zipIdx := by
  rw [starts, flatMap_range', positioned, chunk, List.drop_zero, List.take_of_length_le (le_count_mul hc _)]

end ApexChainx.Lib.Chunks
