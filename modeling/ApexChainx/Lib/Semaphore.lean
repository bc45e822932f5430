import Mathlib
import ApexChainx.Lib.Table

/-!
# Counting semaphores

Processes are a list, and each shows by where it is whether it holds a permit. A semaphore is its counter: the
permits that are left and those that are held make up the capacity, whatever the processes do. With a capacity of
one it is a lock.

Processes that take their permits in one order cannot stop each other for good: each that is stopped waits for one
that is further on, and the furthest of all is not stopped.
-/

namespace ApexChainx.Lib

variable {ρ : Type*} {procs : List ρ} {i j : ℕ} {r r' : ρ}

/-! ## One process moves -/

/-- What one process that moves does to a sum over all. -/
theorem sum_map_replace (f : ρ → ℕ) (hi : procs[i]? = some r) (r' : ρ) :
    ((procs.set i r').map f).sum + f r = (procs.map f).sum + f r' := by
  induction procs generalizing i with
  | nil => simp at hi
  | cons x xs ih =>
      cases i with
      | zero =>
          obtain rfl : x = r := Option.some.inj hi
          rw [List.set_cons_zero, List.map_cons, List.map_cons, List.sum_cons, List.sum_cons]
          omega
      | succ i =>
          have hrest := ih hi
          rw [List.set_cons_succ, List.map_cons, List.map_cons, List.sum_cons, List.sum_cons]
          omega

/-- Of two places with a process of a kind that there is one of at most, both are the same. -/
theorem eq_of_countP_le_one {p : ρ → Bool} (h : procs.countP p ≤ 1) (hi : procs[i]? = some r) (hr : p r = true)
    (hj : procs[j]? = some r') (hr' : p r' = true) : i = j := by
  induction procs generalizing i j with
  | nil => simp at hi
  | cons x xs ih =>
      rw [List.countP_cons] at h
      cases i with
      | zero =>
          cases j with
          | zero => rfl
          | succ j =>
              obtain rfl : x = r := Option.some.inj hi
              have hone : 0 < xs.countP p := List.countP_pos_iff.mpr ⟨r', List.mem_of_getElem? hj, hr'⟩
              rw [if_pos hr] at h
              omega
      | succ i =>
          cases j with
          | zero =>
              obtain rfl : x = r' := Option.some.inj hj
              have hone : 0 < xs.countP p := List.countP_pos_iff.mpr ⟨r, List.mem_of_getElem? hi, hr⟩
              rw [if_pos hr'] at h
              omega
          | succ j => exact congrArg Nat.succ (ih (by omega) hi hj)

/-! ## Permits -/

/-- The permits that are left and those that are held make up the capacity. -/
def Permits (capacity left : ℕ) (holds : ρ → Bool) (procs : List ρ) : Prop := left + procs.countP holds = capacity

namespace Permits

variable {capacity left : ℕ} {holds : ρ → Bool}

/-- A process takes a permit. -/
theorem acquire (h : Permits capacity (left + 1) holds procs) (hi : procs[i]? = some r) (hr : holds r = false)
    (hr' : holds r' = true) : Permits capacity left holds (procs.set i r') := by
  have hcount := countP_replace holds (r := r') hi
  rw [if_neg (Bool.eq_false_iff.mp hr), if_pos hr'] at hcount
  unfold Permits at h ⊢
  omega

/-- A process gives its permit back. -/
theorem release (h : Permits capacity left holds procs) (hi : procs[i]? = some r) (hr : holds r = true)
    (hr' : holds r' = false) : Permits capacity (left + 1) holds (procs.set i r') := by
  have hcount := countP_replace holds (r := r') hi
  rw [if_pos hr, if_neg (Bool.eq_false_iff.mp hr')] at hcount
  unfold Permits at h ⊢
  omega

/-- A process goes on with what it holds. -/
theorem keep (h : Permits capacity left holds procs) (hi : procs[i]? = some r) (hr : holds r' = holds r) :
    Permits capacity left holds (procs.set i r') := by
  have hcount := countP_replace holds (r := r') hi
  rw [hr, add_left_inj] at hcount
  rw [Permits, hcount]
  exact h

/-- A process comes. -/
theorem join (h : Permits capacity left holds procs) (hr : holds r = false) :
    Permits capacity left holds (procs ++ [r]) := by
  unfold Permits at h ⊢
  rw [List.countP_append, List.countP_singleton, hr, if_neg Bool.false_ne_true]
  exact h

theorem of_none (capacity : ℕ) (h : ∀ r ∈ procs, holds r = false) : Permits capacity capacity holds procs := by
  have hzero : procs.countP holds = 0 := List.countP_eq_zero.mpr fun r hr => by simp [h r hr]
  rw [Permits, hzero, add_zero]

theorem left_le (h : Permits capacity left holds procs) : left ≤ capacity := h ▸ Nat.le_add_right _ _

theorem countP_le (h : Permits capacity left holds procs) : procs.countP holds ≤ capacity :=
  h ▸ Nat.le_add_left _ _

/-- No permit is left exactly when as many processes hold one as there are. -/
theorem exhausted_iff (h : Permits capacity left holds procs) : left = 0 ↔ procs.countP holds = capacity := by
  unfold Permits at h
  omega

/-- When no process holds a permit, all are left. -/
theorem eq_capacity (h : Permits capacity left holds procs) (hnone : ∀ r ∈ procs, holds r = false) :
    left = capacity := by
  have hall := of_none capacity hnone
  unfold Permits at h hall
  omega

/-- A lock has one holder. -/
theorem eq_of_holds (h : Permits 1 left holds procs) (hi : procs[i]? = some r) (hr : holds r = true)
    (hj : procs[j]? = some r') (hr' : holds r' = true) : i = j := eq_of_countP_le_one h.countP_le hi hr hj hr'

end Permits

/-! ## Processes that wait -/

/-- Where each process that is stopped waits for one further on, and none is beyond a bound, one is not stopped. -/
theorem exists_not_stopped {ι : Type*} {Open Stopped : ι → Prop} {rank : ι → ℕ} {bound : ℕ}
    (hbound : ∀ i, Open i → rank i ≤ bound)
    (hwaits : ∀ i, Open i → Stopped i → ∃ j, Open j ∧ rank i < rank j) {i : ι} (hi : Open i) :
    ∃ j, Open j ∧ ¬ Stopped j := by
  -- by induction on how far the process is from the bound
  induction hn : bound - rank i using Nat.strongRecOn generalizing i with
  | ind n ih =>
      by_cases hstopped : Stopped i
      · obtain ⟨j, hj, hlt⟩ := hwaits i hi hstopped
        have hle := hbound j hj
        exact ih (bound - rank j) (by omega) hj rfl
      · exact ⟨i, hi, hstopped⟩

end ApexChainx.Lib
