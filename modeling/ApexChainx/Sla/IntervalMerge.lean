import ApexChainx.Sla.Availability

/-!
# Merged intervals

What `merge_intervals` (`app/services/sla/interval_merge.py`) makes of a list of intervals: the same points,
in intervals with gaps between them. The sort looks at the starts alone, and the loop joins the intervals
with one start in whatever order they come.
-/

namespace ApexChainx.Sla

open ApexChainx.Lib

/-- The intervals cover the points of the others, each of them ending before the next one starts. -/
structure Merged (intervals merged : List (ℤ × ℤ)) : Prop where
  sorted : merged.Pairwise fun i j => i.1 < j.1
  gaps : merged.Pairwise fun i j => i.2 < j.1
  points : ∀ t, InSomeClosed merged t ↔ InSomeClosed intervals t

/-- The intervals in the order of their starts. -/
def byStart (intervals : List (ℤ × ℤ)) : List (ℤ × ℤ) := intervals.mergeSort fun i j => i.1 ≤ j.1

theorem perm_byStart (intervals : List (ℤ × ℤ)) : (byStart intervals).Perm intervals :=
  List.mergeSort_perm intervals _

theorem sorted_byStart (intervals : List (ℤ × ℤ)) : (byStart intervals).Pairwise fun i j => i.1 ≤ j.1 := by
  refine (List.pairwise_mergeSort ?_ ?_ intervals).imp (by simp)
  · intro i j k hij hjk
    simpa using (of_decide_eq_true hij).trans (of_decide_eq_true hjk)
  · intro i j
    simpa using le_total i.1 j.1

theorem byStart_of_sorted {intervals : List (ℤ × ℤ)} (h : intervals.Pairwise fun i j => i.1 ≤ j.1) :
    byStart intervals = intervals :=
  List.mergeSort_of_pairwise (h.imp (by simp))

theorem mergeIntervals_of_byStart_eq_cons {intervals rest : List (ℤ × ℤ)} {first : ℤ × ℤ}
    (h : byStart intervals = first :: rest) : mergeIntervals intervals = coalesce first rest := by
  have hmerged := foldl_mergeStep [] first rest
  rw [List.nil_append, List.nil_append] at hmerged
  unfold byStart at h
  rw [mergeIntervals, h]
  exact hmerged

theorem mergeIntervals_of_byStart_eq_nil {intervals : List (ℤ × ℤ)} (h : byStart intervals = []) :
    mergeIntervals intervals = [] := by
  unfold byStart at h
  rw [mergeIntervals, h]

section

variable {intervals : List (ℤ × ℤ)}

theorem merged_mergeIntervals (hvalid : ∀ i ∈ intervals, i.1 ≤ i.2) :
    Merged intervals (mergeIntervals intervals) ∧ ∀ i ∈ mergeIntervals intervals, i.1 ≤ i.2 := by
  have hperm := perm_byStart intervals
  have hsorted := sorted_byStart intervals
  have hpoints : ∀ t, InSomeClosed (byStart intervals) t ↔ InSomeClosed intervals t :=
    fun t => exists_congr fun i => and_congr_left' hperm.mem_iff
  cases hcases : byStart intervals with
  | nil =>
      rw [mergeIntervals_of_byStart_eq_nil hcases]
      rw [hcases] at hpoints
      exact ⟨⟨List.Pairwise.nil, List.Pairwise.nil, hpoints⟩, nofun⟩
  | cons first rest =>
      rw [mergeIntervals_of_byStart_eq_cons hcases]
      rw [hcases] at hperm hsorted hpoints
      have hvalid' : ∀ i ∈ first :: rest, i.1 ≤ i.2 := fun i hi => hvalid i (hperm.mem_iff.mp hi)
      have hends : ∀ i ∈ coalesce first rest, i.1 ≤ i.2 := fun i hi => le_of_mem_coalesce hvalid' hi
      have hgaps := gaps_coalesce hsorted
      refine ⟨⟨?_, hgaps, fun t => (inSomeClosed_coalesce hsorted t).trans (hpoints t)⟩, hends⟩
      exact hgaps.imp_of_mem fun hi _ hgap => (hends _ hi).trans_lt hgap

theorem mergeIntervals_perm (hvalid : ∀ i ∈ intervals, i.1 ≤ i.2) {other : List (ℤ × ℤ)}
    (h : other.Perm intervals) : mergeIntervals other = mergeIntervals intervals := by
  have hperm : (byStart other).Perm (byStart intervals) :=
    (perm_byStart other).trans (h.trans (perm_byStart intervals).symm)
  have hsorted := sorted_byStart other
  have hsorted' := sorted_byStart intervals
  cases hcases : byStart other with
  | nil =>
      rw [hcases] at hperm
      rw [mergeIntervals_of_byStart_eq_nil hcases, mergeIntervals_of_byStart_eq_nil hperm.nil_eq.symm]
  | cons first rest =>
      cases hcases' : byStart intervals with
      | nil =>
          rw [hcases, hcases'] at hperm
          exact absurd hperm.length_eq (Nat.succ_ne_zero _)
      | cons first' rest' =>
          rw [mergeIntervals_of_byStart_eq_cons hcases, mergeIntervals_of_byStart_eq_cons hcases']
          rw [hcases] at hperm hsorted
          rw [hcases'] at hperm hsorted'
          refine coalesce_cons_perm hperm ?_ hsorted hsorted'
          intro i hi
          refine hvalid i ((perm_byStart intervals).mem_iff.mp ?_)
          rw [hcases']
          exact hperm.mem_iff.mp hi

/-- The merged intervals of a period are as long together as the part of it that the intervals cover. -/
theorem sum_mergeIntervals {lo hi : ℤ} (hin : ∀ i ∈ intervals, lo ≤ i.1 ∧ i.2 ≤ hi) :
    ((mergeIntervals intervals).map fun i => (i.2 - i.1).toNat).sum = (covered lo hi intervals).card := by
  have hperm := perm_byStart intervals
  have hsorted := sorted_byStart intervals
  have hcovered : covered lo hi intervals = covered lo hi (byStart intervals) :=
    covered_congr fun t => exists_congr fun i => and_congr_left' hperm.mem_iff.symm
  rw [hcovered]
  cases hcases : byStart intervals with
  | nil =>
      rw [mergeIntervals_of_byStart_eq_nil hcases]
      simp [covered]
  | cons first rest =>
      rw [mergeIntervals_of_byStart_eq_cons hcases]
      rw [hcases] at hperm hsorted
      simp only [← Int.card_Ico]
      exact sum_coalesce hsorted fun i hi => hin i (hperm.mem_iff.mp hi)

/-- Intervals with gaps between them, in order, are merged already. -/
theorem mergeIntervals_of_merged {merged : List (ℤ × ℤ)} (h : Merged intervals merged) :
    mergeIntervals merged = merged := by
  have hsorted := byStart_of_sorted (h.sorted.imp le_of_lt)
  cases merged with
  | nil => exact mergeIntervals_of_byStart_eq_nil hsorted
  | cons first rest => rw [mergeIntervals_of_byStart_eq_cons hsorted, coalesce_of_gaps h.gaps]

end

/-- Intervals that start no later than they end are merged into ordered ones with gaps between them and the
same points. The order in which they are listed does not matter, and what is merged is not merged further. -/
theorem mergeIntervals_spec {intervals : List (ℤ × ℤ)} (hvalid : ∀ i ∈ intervals, i.1 ≤ i.2) :
    Merged intervals (mergeIntervals intervals) ∧
      (∀ other, other.Perm intervals → mergeIntervals other = mergeIntervals intervals) ∧
      mergeIntervals (mergeIntervals intervals) = mergeIntervals intervals := by
  obtain ⟨hmerged, -⟩ := merged_mergeIntervals hvalid
  exact ⟨hmerged, fun other h => mergeIntervals_perm hvalid h, mergeIntervals_of_merged hmerged⟩

/-- Nested and touching intervals, and two with one start. -/
def nestedIntervals : List (ℤ × ℤ) := [(9, 12), (0, 10), (12, 14), (0, 3), (20, 21)]

theorem nested_intervals_merged :
    Merged nestedIntervals (mergeIntervals nestedIntervals) ∧
      (∀ other, other.Perm nestedIntervals → mergeIntervals other = mergeIntervals nestedIntervals) ∧
      mergeIntervals (mergeIntervals nestedIntervals) = mergeIntervals nestedIntervals :=
  mergeIntervals_spec (by decide)

end ApexChainx.Sla
