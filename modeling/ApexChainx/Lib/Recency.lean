import Mathlib.Data.List.Dedup
import Mathlib.Data.List.Lattice

/-!
# The most recent elements

The distinct elements of a log in the order of their last occurrence are its `dedup`. An element that is used
again moves to the end (`dedup_concat`); a list that keeps the last `cap` of them is moved along in the same
way, up to the elements that then are too many (`le_length_touch`).
-/

namespace ApexChainx.Lib.Recency

variable {α : Type*} [DecidableEq α] {cap : ℕ} {a : α} {kept all log : List α}

/-- The last `cap` distinct elements of a log. -/
def recent (cap : ℕ) (log : List α) : List α := log.dedup.drop (log.dedup.length - cap)

/-- The list after the element has been used. -/
def touch (a : α) (l : List α) : List α := l.filter (· ≠ a) ++ [a]

theorem dedup_concat (log : List α) (a : α) : (log ++ [a]).dedup = touch a log.dedup := by
  induction log with
  | nil => rfl
  | cons b log ih =>
      rw [List.cons_append]
      by_cases hmem : b ∈ log
      · rw [List.dedup_cons_of_mem (List.mem_append_left _ hmem), List.dedup_cons_of_mem hmem, ih]
      · by_cases hba : b = a
        · subst hba
          rw [List.dedup_cons_of_mem (by simp), List.dedup_cons_of_notMem hmem, ih]
          simp [touch]
        · rw [List.dedup_cons_of_notMem (by simp [hmem, hba]), List.dedup_cons_of_notMem hmem, ih]
          simp [touch, hba]

theorem touch_suffix (h : kept <:+ all) (a : α) : touch a kept <:+ touch a all := by
  obtain ⟨init, rfl⟩ := h
  exact ⟨init.filter (· ≠ a), by simp [touch]⟩

theorem length_touch_of_notMem {l : List α} (h : a ∉ l) : (touch a l).length = l.length + 1 := by
  have hall : l.filter (· ≠ a) = l := by
    rw [List.filter_eq_self]
    intro b hb
    exact decide_eq_true fun heq => h (heq ▸ hb)
  rw [touch, hall, List.length_append, List.length_singleton]

theorem length_touch_of_mem {l : List α} (hnodup : l.Nodup) (h : a ∈ l) : (touch a l).length = l.length := by
  have herase : l.filter (· ≠ a) = l.erase a := by
    rw [hnodup.erase_eq_filter]
    exact List.filter_congr fun b _ => by simp [Bool.beq_eq_decide_eq, bne]
  have hpos : 0 < l.length := List.length_pos_of_mem h
  rw [touch, herase, List.length_append, List.length_erase_of_mem h, List.length_singleton]
  omega

/-- A list that had the most recent elements has them after a use, and perhaps one more. -/
theorem le_length_touch (hnodup : all.Nodup) (hsuffix : kept <:+ all) (hlength : kept.length = min cap all.length) :
    min cap (touch a all).length ≤ (touch a kept).length := by
  have hle := hsuffix.length_le
  by_cases hkept : a ∈ kept
  · rw [length_touch_of_mem hnodup (hsuffix.subset hkept),
      length_touch_of_mem (hnodup.sublist hsuffix.sublist) hkept]
    omega
  · rw [length_touch_of_notMem hkept]
    by_cases hall : a ∈ all
    · rw [length_touch_of_mem hnodup hall]
      omega
    · rw [length_touch_of_notMem hall]
      omega

theorem eq_recent (hsuffix : kept <:+ log.dedup) (hlength : kept.length = min cap log.dedup.length) :
    kept = recent cap log := by
  have hdrop := List.suffix_iff_eq_drop.mp hsuffix
  rw [hdrop, recent]
  congr 1
  omega

theorem length_recent (cap : ℕ) (log : List α) : (recent cap log).length = min cap log.dedup.length := by
  rw [recent, List.length_drop]
  omega

/-- An element behind whose last use less than `cap` others were used is among the most recent ones. -/
theorem mem_recent {before after : List α} (ha : a ∉ after) (h : after.dedup.length < cap) :
    a ∈ recent cap (before ++ a :: after) := by
  have hbehind : (a :: after.dedup) <:+ (before ++ a :: after).dedup := by
    rw [List.dedup_append, List.dedup_cons_of_notMem ha]
    exact List.suffix_union_right _ _
  have hrecent : recent cap (before ++ a :: after) <:+ (before ++ a :: after).dedup := List.drop_suffix _ _
  have hlength : (a :: after.dedup).length ≤ (recent cap (before ++ a :: after)).length := by
    have hle := hbehind.length_le
    rw [length_recent]
    simp only [List.length_cons] at hle ⊢
    omega
  exact (List.suffix_of_suffix_length_le hbehind hrecent hlength).subset List.mem_cons_self

end ApexChainx.Lib.Recency
