import Mathlib.Data.List.Count
import Mathlib.Data.List.Nodup

/-!
# Tables as lists of rows

A table is the list of its rows in insertion order. An `UPDATE … WHERE key = k` rewrites the rows
under one key; the lemmas say what such an update does to a count and to a lookup when the key is
a primary key, that is when no two rows share it.
-/

namespace ApexChainx.Lib

variable {ρ κ : Type*} [DecidableEq κ]

omit [DecidableEq κ] in
/-- What is found in a table after a row was added. -/
theorem getElem?_concat_eq_some {rows : List ρ} {row r : ρ} {i : ℕ} (h : (rows ++ [row])[i]? = some r) :
    rows[i]? = some r ∨ (i = rows.length ∧ r = row) := by
  rcases Nat.lt_trichotomy i rows.length with hlt | rfl | hgt
  · rw [List.getElem?_append_left hlt] at h
    exact .inl h
  · rw [List.getElem?_concat_length, Option.some.injEq] at h
    exact .inr ⟨rfl, h.symm⟩
  · rw [List.getElem?_eq_none (by rw [List.length_append, List.length_singleton]; omega)] at h
    cases h

/-- A column in an `UPDATE`: a value that was loaded is not written. -/
def writeColumn {α : Type*} [DecidableEq α] (loaded new current : α) : α :=
  if new = loaded then current else new

/-- A value that was written is the new one, when the row was as it was loaded. -/
theorem writeColumn_eq {α : Type*} [DecidableEq α] {loaded new current : α} (h : current = loaded) :
    writeColumn loaded new current = new := by
  unfold writeColumn
  split_ifs with heq
  · rw [h, heq]
  · rfl

/-- Rewrite the rows whose key is `k`. -/
def updateKey (key : ρ → κ) (k : κ) (g : ρ → ρ) (rows : List ρ) : List ρ :=
  rows.map fun r => if key r = k then g r else r

theorem updateKey_cons (key : ρ → κ) (k : κ) (g : ρ → ρ) (x : ρ) (rows : List ρ) :
    updateKey key k g (x :: rows) = (if key x = k then g x else x) :: updateKey key k g rows := rfl

/-- Rewriting under a key that no row has changes nothing. -/
theorem updateKey_of_not_mem {key : ρ → κ} {k : κ} {g : ρ → ρ} {rows : List ρ}
    (h : k ∉ rows.map key) : updateKey key k g rows = rows := by
  unfold updateKey
  conv_rhs => rw [← List.map_id rows]
  refine List.map_congr_left fun r hr => ?_
  rw [if_neg]
  · rfl
  · intro hk
    exact h (List.mem_map.mpr ⟨r, hr, hk⟩)

/-- A rewrite that keeps the key keeps the list of keys. -/
theorem map_key_updateKey {key : ρ → κ} {k : κ} {g : ρ → ρ} (hg : ∀ r, key (g r) = key r)
    (rows : List ρ) : (updateKey key k g rows).map key = rows.map key := by
  unfold updateKey
  rw [List.map_map]
  refine List.map_congr_left fun r _ => ?_
  simp only [Function.comp_apply]
  split
  · exact hg r
  · rfl

/-- A lookup under the rewritten key finds the same row, rewritten. -/
theorem find?_updateKey {key : ρ → κ} {k : κ} {g : ρ → ρ} (hg : ∀ r, key (g r) = key r)
    (rows : List ρ) :
    (updateKey key k g rows).find? (fun r => decide (key r = k))
      = (rows.find? fun r => decide (key r = k)).map g := by
  induction rows with
  | nil => rfl
  | cons x rows ih =>
      rw [updateKey_cons]
      by_cases hx : key x = k
      · rw [if_pos hx, List.find?_cons_of_pos (by simpa [hg] using hx),
          List.find?_cons_of_pos (by simpa using hx), Option.map_some]
      · rw [if_neg hx, List.find?_cons_of_neg (by simpa using hx),
          List.find?_cons_of_neg (by simpa using hx), ih]

/-- A lookup under another key finds the same row. -/
theorem find?_updateKey_ne {key : ρ → κ} {k k' : κ} {g : ρ → ρ} (hg : ∀ r, key (g r) = key r)
    (hne : k ≠ k') (rows : List ρ) :
    (updateKey key k g rows).find? (fun r => decide (key r = k'))
      = rows.find? fun r => decide (key r = k') := by
  induction rows with
  | nil => rfl
  | cons x rows ih =>
      rw [updateKey_cons, List.find?_cons, List.find?_cons, ih]
      by_cases hx : key x = k
      · have hne' : key x ≠ k' := hx ▸ hne
        simp [hx, hg, hne]
      · simp [hx]

/-- What rewriting the one row under a primary key does to the number of rows satisfying `p`. -/
theorem countP_updateKey {key : ρ → κ} {g : ρ → ρ} {rows : List ρ} (p : ρ → Bool)
    (hnodup : (rows.map key).Nodup) {r : ρ} (hr : r ∈ rows) :
    (updateKey key (key r) g rows).countP p + (if p r then 1 else 0)
      = rows.countP p + (if p (g r) then 1 else 0) := by
  induction rows with
  | nil => simp at hr
  | cons x rows ih =>
      rw [List.map_cons, List.nodup_cons] at hnodup
      rcases List.mem_cons.mp hr with rfl | hmem
      · -- the rewritten row is the head: the tail has no row under its key
        have htail : updateKey key (key r) g rows = rows := updateKey_of_not_mem hnodup.1
        rw [updateKey_cons, if_pos rfl, htail, List.countP_cons, List.countP_cons]
        omega
      · have hne : key x ≠ key r := by
          intro hk
          exact hnodup.1 (hk ▸ List.mem_map_of_mem hmem)
        have hrest := ih hnodup.2 hmem
        rw [updateKey_cons, if_neg hne, List.countP_cons, List.countP_cons]
        omega

/-- Deleting, by their primary keys, the first `n` of the rows that satisfy `p` leaves the others of
them. -/
theorem filter_deleted {key : ρ → κ} {rows : List ρ} (hnodup : (rows.map key).Nodup) (p : ρ → Bool)
    (n : ℕ) :
    (rows.filter fun r => key r ∉ ((rows.filter p).take n).map key).filter p
      = (rows.filter p).drop n := by
  have hkeys : ((rows.filter p).map key).Nodup := hnodup.sublist (List.filter_sublist.map key)
  generalize hmatch : rows.filter p = matching at hkeys ⊢
  rw [List.filter_comm, hmatch]
  have htake : (matching.take n).filter (fun r => key r ∉ (matching.take n).map key) = [] := by
    refine List.filter_eq_nil_iff.mpr ?_
    intro r hr hnot
    exact of_decide_eq_true hnot (List.mem_map_of_mem hr)
  have hdrop : (matching.drop n).filter (fun r => key r ∉ (matching.take n).map key)
      = matching.drop n := by
    rw [← List.take_append_drop n matching, List.map_append, List.nodup_append] at hkeys
    refine List.filter_eq_self.mpr ?_
    intro r hr
    refine decide_eq_true ?_
    intro hmem
    exact hkeys.2.2 _ hmem _ (List.mem_map_of_mem hr) rfl
  calc matching.filter (fun r => key r ∉ (matching.take n).map key)
      = (matching.take n ++ matching.drop n).filter (fun r => key r ∉ (matching.take n).map key) := by
        rw [List.take_append_drop]
    _ = matching.drop n := by rw [List.filter_append, htake, hdrop, List.nil_append]

/-- Deleting, by their primary keys, rows that satisfy `p` leaves those that do not. -/
theorem filter_not_deleted {key : ρ → κ} {rows : List ρ} (hnodup : (rows.map key).Nodup)
    (p : ρ → Bool) (n : ℕ) :
    (rows.filter fun r => key r ∉ ((rows.filter p).take n).map key).filter (fun r => !p r)
      = rows.filter fun r => !p r := by
  rw [List.filter_filter]
  refine List.filter_congr ?_
  intro r hr
  by_cases hp : p r = true
  · simp [hp]
  · have hnot : key r ∉ ((rows.filter p).take n).map key := by
      intro hmem
      obtain ⟨x, hx, hkey⟩ := List.mem_map.mp hmem
      obtain ⟨hxrows, hpx⟩ := List.mem_filter.mp (List.mem_of_mem_take hx)
      rw [List.inj_on_of_nodup_map hnodup hxrows hr hkey] at hpx
      exact hp hpx
    rw [decide_eq_true hnot, Bool.and_true]

/-- A lookup by primary key finds the row. -/
theorem find?_key {key : ρ → κ} {rows : List ρ} (hnodup : (rows.map key).Nodup) {r : ρ} (hr : r ∈ rows) :
    rows.find? (fun x => decide (key x = key r)) = some r := by
  cases hfind : rows.find? (fun x => decide (key x = key r)) with
  | none =>
      have hne := List.find?_eq_none.mp hfind r hr
      simp at hne
  | some x =>
      have hkey : key x = key r := by
        simpa using List.find?_some hfind
      rw [List.inj_on_of_nodup_map hnodup (List.mem_of_find?_eq_some hfind) hr hkey]

theorem find?_key_eq_some_iff {key : ρ → κ} {rows : List ρ} (hnodup : (rows.map key).Nodup) {k : κ} {r : ρ} :
    rows.find? (fun x => decide (key x = k)) = some r ↔ r ∈ rows ∧ key r = k := by
  constructor
  · intro hr
    exact ⟨List.mem_of_find?_eq_some hr, by simpa using List.find?_some hr⟩
  · rintro ⟨hmem, rfl⟩
    exact find?_key hnodup hmem

/-- A lookup by primary key among the rows that satisfy `p`. -/
theorem find?_filter_key {key : ρ → κ} {rows : List ρ} (hnodup : (rows.map key).Nodup) (p : ρ → Bool)
    (k : κ) :
    (rows.filter p).find? (fun x => decide (key x = k))
      = (rows.find? fun x => decide (key x = k)).filter p := by
  induction rows with
  | nil => rfl
  | cons x rows ih =>
      rw [List.map_cons, List.nodup_cons] at hnodup
      by_cases hx : key x = k
      · rw [List.find?_cons_of_pos (by simpa using hx)]
        by_cases hp : p x = true
        · rw [List.filter_cons_of_pos hp, List.find?_cons_of_pos (by simpa using hx),
            Option.filter_some_pos hp]
        · -- no other row has the key
          rw [List.filter_cons_of_neg hp, Option.filter_some_neg (by simpa using hp)]
          apply List.find?_eq_none.mpr
          intro y hy hyk
          have hmem := List.mem_map_of_mem (f := key) (List.mem_filter.mp hy).1
          rw [of_decide_eq_true hyk, ← hx] at hmem
          exact hnodup.1 hmem
      · rw [List.find?_cons_of_neg (by simpa using hx), ← ih hnodup.2]
        by_cases hp : p x = true
        · rw [List.filter_cons_of_pos hp, List.find?_cons_of_neg (by simpa using hx)]
        · rw [List.filter_cons_of_neg hp]

/-- A row that is the only one satisfying `p` is the one a lookup by `p` returns. -/
theorem find?_eq_of_countP_eq_one {p : ρ → Bool} {rows : List ρ} {r : ρ}
    (hcount : rows.countP p = 1) (hr : r ∈ rows) (hp : p r = true) : rows.find? p = some r := by
  induction rows with
  | nil => simp at hr
  | cons x rows ih =>
      rw [List.countP_cons] at hcount
      by_cases hx : p x = true
      · rw [if_pos hx] at hcount
        have hnone : rows.countP p = 0 := by omega
        rcases List.mem_cons.mp hr with rfl | hmem
        · simp [hx]
        · exact absurd hp (List.countP_eq_zero.mp hnone r hmem)
      · rw [if_neg hx] at hcount
        rcases List.mem_cons.mp hr with rfl | hmem
        · exact absurd hp hx
        · rw [List.find?_cons_of_neg hx]
          exact ih (by omega) hmem

/-- What holds of all rows and of the row that replaces one of them holds of all afterwards. -/
theorem forall_mem_set {P : ρ → Prop} {rows : List ρ} {i : ℕ} {r : ρ}
    (h : ∀ x ∈ rows, P x) (hr : P r) : ∀ x ∈ rows.set i r, P x := by
  intro x hx
  rcases List.mem_or_eq_of_mem_set hx with hmem | rfl
  · exact h x hmem
  · exact hr

/-- A row after an insert is an old one in its old place, or the new one in the last place. -/
theorem getElem?_insert {rows : List ρ} {r x : ρ} {i : ℕ} (h : (rows ++ [r])[i]? = some x) :
    rows[i]? = some x ∨ (i = rows.length ∧ x = r) := by
  rw [List.getElem?_append] at h
  split at h
  · exact .inl h
  · rename_i hi
    rw [List.getElem?_singleton] at h
    split at h
    · exact .inr ⟨by omega, (Option.some.inj h).symm⟩
    · cases h

/-- A row after one was replaced is the replacement in its place, or an old one in another place. -/
theorem getElem?_replace {rows : List ρ} {r x : ρ} {i j : ℕ} (h : (rows.set i r)[j]? = some x) :
    (j = i ∧ x = r) ∨ (j ≠ i ∧ rows[j]? = some x) := by
  rw [List.getElem?_set] at h
  split at h
  · rename_i hij
    split at h
    · exact .inl ⟨hij.symm, (Option.some.inj h).symm⟩
    · cases h
  · rename_i hij
    exact .inr ⟨fun heq => hij heq.symm, h⟩

/-- What replacing one row does to the number of rows satisfying `p`. -/
theorem countP_replace (p : ρ → Bool) {rows : List ρ} {i : ℕ} {r x : ρ} (h : rows[i]? = some x) :
    (rows.set i r).countP p + (if p x then 1 else 0) = rows.countP p + if p r then 1 else 0 := by
  obtain ⟨hi, rfl⟩ := List.getElem?_eq_some_iff.mp h
  rw [List.countP_set hi]
  by_cases hp : p rows[i] = true
  · have hpos : 0 < rows.countP p := List.countP_pos_iff.mpr ⟨_, List.getElem_mem hi, hp⟩
    rw [if_pos hp]
    omega
  · rw [if_neg hp]
    omega

/-- What replacing one row does to the number of elements satisfying `p` in the lists of all rows. -/
theorem countP_flatMap_replace {ω : Type*} (f : ρ → List ω) (p : ω → Bool) {rows : List ρ} {i : ℕ}
    {r x : ρ} (h : rows[i]? = some x) :
    ((rows.set i r).flatMap f).countP p + (f x).countP p =
      (rows.flatMap f).countP p + (f r).countP p := by
  induction rows generalizing i with
  | nil => simp at h
  | cons y rows ih =>
      cases i with
      | zero =>
          obtain rfl : y = x := by simpa using h
          simp only [List.set_cons_zero, List.flatMap_cons, List.countP_append]
          omega
      | succ i =>
          have hrest := ih (i := i) (by simpa using h)
          simp only [List.set_cons_succ, List.flatMap_cons, List.countP_append]
          omega

/-- The elements in the lists of all rows after one was replaced. -/
theorem mem_flatMap_replace {ω : Type*} {f : ρ → List ω} {rows : List ρ} {i : ℕ} {r : ρ} {v : ω}
    (h : v ∈ (rows.set i r).flatMap f) : v ∈ rows.flatMap f ∨ v ∈ f r := by
  obtain ⟨x, hx, hv⟩ := List.mem_flatMap.mp h
  rcases List.mem_or_eq_of_mem_set hx with hx | rfl
  · exact .inl (List.mem_flatMap.mpr ⟨x, hx, hv⟩)
  · exact .inr hv

/-- The rows whose first element satisfies `p` are no more than the elements that do. -/
theorem countP_head_le {ω : Type*} (f : ρ → List ω) (p : ω → Bool) (rows : List ρ) :
    (rows.countP fun r => (f r).head?.any p) ≤ (rows.flatMap f).countP p := by
  induction rows with
  | nil => simp
  | cons r rows ih =>
      rw [List.countP_cons, List.flatMap_cons, List.countP_append]
      cases hr : f r with
      | nil => simpa [hr] using ih
      | cons v vs =>
          by_cases hv : p v = true
          · simp only [List.head?_cons, Option.any_some, List.countP_cons, hv, if_true]
            omega
          · simp only [List.head?_cons, Option.any_some, List.countP_cons, hv]
            omega

/-- A row of an updated table is an old row, or an old row under the key, rewritten. -/
theorem mem_updateKey_iff {key : ρ → κ} {k : κ} {g : ρ → ρ} {rows : List ρ} {x : ρ} :
    x ∈ updateKey key k g rows ↔ (x ∈ rows ∧ key x ≠ k) ∨ ∃ r ∈ rows, key r = k ∧ x = g r := by
  unfold updateKey
  rw [List.mem_map]
  constructor
  · rintro ⟨r, hr, rfl⟩
    by_cases hk : key r = k
    · rw [if_pos hk]
      exact .inr ⟨r, hr, hk, rfl⟩
    · rw [if_neg hk]
      exact .inl ⟨hr, hk⟩
  · rintro (⟨hx, hk⟩ | ⟨r, hr, hk, rfl⟩)
    · exact ⟨x, hx, if_neg hk⟩
    · exact ⟨r, hr, if_pos hk⟩

theorem mem_updateKey {key : ρ → κ} {k : κ} {g : ρ → ρ} {rows : List ρ} {x : ρ}
    (hx : x ∈ updateKey key k g rows) : x ∈ rows ∨ ∃ r ∈ rows, key r = k ∧ x = g r :=
  (mem_updateKey_iff.mp hx).imp_left And.left

end ApexChainx.Lib
