import Mathlib.Data.List.Count
import Mathlib.Data.List.Perm.Basic
import ApexChainx.Lib.Table
import ApexChainx.Lib.Transition

/-!
# Deleting in batches

A sweep deletes the rows that are eligible for one of its phases, phase by phase: it selects the keys of a
batch of eligible rows and deletes by key alone, until a batch is not full. It may count a phase's rows first,
and a dry run does nothing else. Which rows a query with a limit returns is up to the database (`Limited`).

Alone on the table, a sweep comes to an end with exactly the eligible rows deleted (`sweepStep_lowers`,
`Swept.finished`). Beside writers it deletes eligible rows as long as no write takes a row out of the phase that
it has been selected for (`deletesEligible_of_spares`).
-/

namespace ApexChainx.Lib

variable {ρ κ φ τ υ : Type*}

/-- What `SELECT key … WHERE p LIMIT n` may return. -/
def Limited (key : ρ → κ) (p : ρ → Bool) (n : ℕ) (rows : List ρ) (ids : List κ) : Prop :=
  ids.Nodup ∧ (∀ k ∈ ids, ∃ r ∈ rows, key r = k ∧ p r = true) ∧ ids.length = min n (rows.countP p)

/-- Where a sweep stands in its first phase. -/
inductive Stage (κ : Type*)
  | counting
  | selecting
  | deleting (ids : List κ)
deriving DecidableEq

/-- A sweep: the phases that are left, what has been deleted in the first of them, and the number reported
for each phase before. -/
structure Sweep (φ κ : Type*) where
  phases : List φ
  stage : Stage κ
  deleted : ℕ
  reported : List ℕ
  counted : Bool
  dryRun : Bool
  batch : ℕ

namespace Sweep

/-- How a phase begins. -/
def firstStage (counted : Bool) : Stage κ := if counted then .counting else .selecting

theorem firstStage_ne_deleting (counted : Bool) (ids : List κ) : firstStage counted ≠ .deleting ids := by
  unfold firstStage
  split <;> simp

/-- A sweep before its first statement. -/
def new (phases : List φ) (counted dryRun : Bool) (batch : ℕ) : Sweep φ κ :=
  ⟨phases, firstStage counted, 0, [], counted, dryRun, batch⟩

/-- The end of a phase. -/
def close (sw : Sweep φ κ) (n : ℕ) : Sweep φ κ :=
  { sw with
    phases := sw.phases.tail
    stage := firstStage sw.counted
    deleted := 0
    reported := sw.reported ++ [n] }

/-- The next statement of a phase. -/
def goto (sw : Sweep φ κ) (stage : Stage κ) : Sweep φ κ := { sw with stage }

/-- A batch of `n` rows has been deleted. -/
def count (sw : Sweep φ κ) (n : ℕ) : Sweep φ κ := { sw with deleted := sw.deleted + n }

/-- What a sweep still has before it. -/
def work (sw : Sweep φ κ) : ℕ :=
  3 * sw.phases.length + match sw.stage with
    | .counting => 2
    | .selecting => 1
    | .deleting _ => 0

/-- The end of a phase leaves less to do. -/
theorem work_close_lt {sw : Sweep φ κ} {p : φ} {rest : List φ} (hphases : sw.phases = p :: rest) (n : ℕ) :
    (sw.close n).work < sw.work := by
  simp only [work, close, firstStage, hphases, List.tail_cons, List.length_cons]
  cases sw.counted <;> simp only [Bool.false_eq_true, if_true, if_false] <;> omega

end Sweep

section

variable {key : ρ → κ} {p : ρ → Bool} {n : ℕ} {rows : List ρ} {ids : List κ}

/-- The database always has rows to return. -/
theorem exists_limited (hnodup : (rows.map key).Nodup) (p : ρ → Bool) (n : ℕ) :
    ∃ ids, Limited key p n rows ids := by
  refine ⟨((rows.filter p).take n).map key, ?_, ?_, ?_⟩
  · exact hnodup.sublist (((List.take_sublist n _).trans List.filter_sublist).map key)
  · intro k hk
    obtain ⟨r, hr, rfl⟩ := List.mem_map.mp hk
    obtain ⟨hrows, hp⟩ := List.mem_filter.mp (List.mem_of_mem_take hr)
    exact ⟨r, hrows, rfl, hp⟩
  · rw [List.length_map, List.length_take, List.countP_eq_length_filter]

/-- By primary key, the selected rows are the ones that satisfied the query. -/
theorem Limited.eligible (h : Limited key p n rows ids) (hnodup : (rows.map key).Nodup) {r : ρ}
    (hr : r ∈ rows) (hid : key r ∈ ids) : p r = true := by
  obtain ⟨x, hx, hkey, hp⟩ := h.2.1 (key r) hid
  rwa [List.inj_on_of_nodup_map hnodup hx hr hkey] at hp

end

/-! ## What a sweep has done -/

/-- No phase is for the row. -/
def untouched (eligible : φ → ρ → Bool) (phases : List φ) (r : ρ) : Bool := !phases.any (eligible · r)

/-- No row is eligible for two of the phases. -/
def DisjointPhases (eligible : φ → ρ → Bool) (phases : List φ) : Prop :=
  phases.Pairwise fun p q => ∀ r, eligible p r = true → eligible q r = false

/-- What a sweep has done so far, beside the table it began with. -/
structure Swept (key : ρ → κ) (eligible : φ → ρ → Bool) (before : List ρ) (phases : List φ)
    (s : List ρ × Sweep φ κ) : Prop where
  nodup : (s.1.map key).Nodup
  wet : s.2.dryRun = false
  batch_pos : 0 < s.2.batch
  reported : ∃ closed, phases = closed ++ s.2.phases ∧
    s.2.reported = closed.map fun p => before.countP (eligible p)
  kept : s.1.filter (untouched eligible s.2.phases) = before.filter (untouched eligible phases)
  current : ∀ p rest, s.2.phases = p :: rest →
    s.2.deleted + s.1.countP (eligible p) = before.countP (eligible p)
  counting : s.2.stage = .counting → s.2.deleted = 0
  later : ∀ q ∈ s.2.phases.tail, s.1.countP (eligible q) = before.countP (eligible q)
  selected : ∀ p rest ids, s.2.phases = p :: rest → s.2.stage = .deleting ids →
    ids ≠ [] ∧ Limited key (eligible p) s.2.batch s.1 ids

section

variable {key : ρ → κ} {eligible : φ → ρ → Bool} {before rows : List ρ} {phases rest : List φ} {p : φ}
  {sw : Sweep φ κ}

theorem swept_new (hnodup : (rows.map key).Nodup) (counted : Bool) {batch : ℕ} (hbatch : 0 < batch) :
    Swept key eligible rows phases (rows, .new phases counted false batch) where
  nodup := hnodup
  wet := rfl
  batch_pos := hbatch
  reported := ⟨[], rfl, rfl⟩
  kept := rfl
  current _ _ _ := Nat.zero_add _
  counting _ := rfl
  later _ _ := rfl
  selected _ _ ids _ hstage := absurd hstage (Sweep.firstStage_ne_deleting counted ids)

/-- A phase is closed when no row is left for it, with the number of rows there were. -/
theorem Swept.close (h : Swept key eligible before phases (rows, sw)) (hphases : sw.phases = p :: rest)
    (hnone : rows.countP (eligible p) = 0) {n : ℕ} (hn : n = before.countP (eligible p)) :
    Swept key eligible before phases (rows, sw.close n) where
  nodup := h.nodup
  wet := h.wet
  batch_pos := h.batch_pos
  reported := by
    obtain ⟨closed, hclosed, hreported⟩ := h.reported
    refine ⟨closed ++ [p], ?_, ?_⟩
    · simp [Sweep.close, hclosed, hphases]
    · simp only [Sweep.close] at hreported ⊢
      rw [hreported, hn, List.map_append, List.map_cons, List.map_nil]
  kept := by
    rw [← h.kept]
    refine List.filter_congr ?_
    intro r hr
    -- the phase that is closed has no rows left, so it may go from the list
    have hp : eligible p r = false := by
      simpa using (List.countP_eq_zero.mp hnone) r hr
    simp [untouched, Sweep.close, hphases, hp]
  current := by
    intro q rest' hq
    simp only [Sweep.close, hphases, List.tail_cons] at hq ⊢
    rw [Nat.zero_add]
    exact h.later q (by simp [hphases, hq])
  counting _ := rfl
  later := by
    intro q hq
    simp only [Sweep.close, hphases, List.tail_cons] at hq
    exact h.later q (by simpa [hphases] using List.mem_of_mem_tail hq)
  selected _ _ ids _ hstage := absurd hstage (Sweep.firstStage_ne_deleting sw.counted ids)

/-- After a sweep the rows that no phase is for are left, and what was reported for each phase is the number
of its rows. -/
theorem Swept.finished {s : List ρ × Sweep φ κ} (h : Swept key eligible before phases s)
    (hphases : s.2.phases = []) : s.1 = before.filter (untouched eligible phases) ∧
      s.2.reported = phases.map fun p => before.countP (eligible p) := by
  obtain ⟨closed, hclosed, hreported⟩ := h.reported
  rw [hphases, List.append_nil] at hclosed
  refine ⟨?_, hclosed ▸ hreported⟩
  rw [← h.kept, hphases]
  exact (List.filter_eq_self.mpr fun r _ => rfl).symm

end

/-! ## The statements of a sweep -/

variable [DecidableEq κ]

instance (key : ρ → κ) (p : ρ → Bool) (n : ℕ) (rows : List ρ) (ids : List κ) :
    Decidable (Limited key p n rows ids) := inferInstanceAs (Decidable (_ ∧ _ ∧ _))

/-- `DELETE … WHERE key IN ids`. -/
def deleteKeys (key : ρ → κ) (ids : List κ) (rows : List ρ) : List ρ := rows.filter fun r => key r ∉ ids

/-- One statement of a sweep; `chosen` is what the query returns. -/
def sweepStep (key : ρ → κ) (eligible : φ → ρ → Bool) (s : List ρ × Sweep φ κ) (chosen : List κ) :
    Option (List ρ × Sweep φ κ) :=
  let (rows, sw) := s
  match sw.phases with
  | [] => none
  | p :: _ =>
      match sw.stage with
      | .counting =>
          let n := rows.countP (eligible p)
          if sw.dryRun ∨ n = 0 then some (rows, sw.close n)
          else some (rows, sw.goto .selecting)
      | .selecting =>
          if Limited key (eligible p) sw.batch rows chosen then
            if chosen = [] then some (rows, sw.close sw.deleted)
            else some (rows, sw.goto (.deleting chosen))
          else none
      | .deleting ids =>
          -- the keys are counted, not the rows that the delete finds
          let sw := sw.count ids.length
          some (deleteKeys key ids rows,
            if ids.length < sw.batch then sw.close sw.deleted else sw.goto .selecting)

/-! ## One batch -/

section

variable {key : ρ → κ} {p : ρ → Bool} {n : ℕ} {rows : List ρ} {ids : List κ}

/-- As many rows have the selected keys as keys were selected. -/
theorem Limited.countP_mem (h : Limited key p n rows ids) (hnodup : (rows.map key).Nodup) :
    rows.countP (fun r => key r ∈ ids) = ids.length := by
  have hkeys : ((rows.filter fun r => key r ∈ ids).map key).Nodup :=
    hnodup.sublist (List.filter_sublist.map key)
  -- no key occurs twice on either side
  have hperm : ((rows.filter fun r => key r ∈ ids).map key).Perm ids := by
    rw [List.perm_ext_iff_of_nodup hkeys h.1]
    intro k
    constructor
    · intro hk
      obtain ⟨r, hr, rfl⟩ := List.mem_map.mp hk
      exact of_decide_eq_true (List.mem_filter.mp hr).2
    · intro hk
      obtain ⟨r, hr, rfl, -⟩ := h.2.1 k hk
      exact List.mem_map_of_mem (List.mem_filter.mpr ⟨hr, decide_eq_true hk⟩)
  rw [List.countP_eq_length_filter, ← hperm.length_eq, List.length_map]

/-- A delete takes the selected rows from the eligible ones. -/
theorem Limited.countP_delete (h : Limited key p n rows ids) (hnodup : (rows.map key).Nodup) :
    (deleteKeys key ids rows).countP p + ids.length = rows.countP p := by
  have hsplit := List.countP_eq_countP_filter_add rows p fun r => key r ∈ ids
  have hchosen : (rows.filter fun r => key r ∈ ids).countP p = ids.length := by
    rw [← h.countP_mem hnodup, List.countP_eq_length_filter, List.countP_eq_length_filter,
      List.filter_eq_self.mpr]
    intro r hr
    obtain ⟨hrows, hid⟩ := List.mem_filter.mp hr
    exact h.eligible hnodup hrows (of_decide_eq_true hid)
  have hrest : (rows.filter fun r => !decide (key r ∈ ids)) = deleteKeys key ids rows := by
    unfold deleteKeys
    exact List.filter_congr fun r _ => by simp
  rw [hchosen, hrest] at hsplit
  omega

/-- A delete leaves the rows that are not eligible. -/
theorem Limited.filter_delete (h : Limited key p n rows ids) (hnodup : (rows.map key).Nodup)
    {q : ρ → Bool} (hq : ∀ r ∈ rows, p r = true → q r = false) :
    (deleteKeys key ids rows).filter q = rows.filter q := by
  unfold deleteKeys
  rw [List.filter_filter]
  refine List.filter_congr ?_
  intro r hr
  by_cases hid : key r ∈ ids
  · simp [hq r hr (h.eligible hnodup hr hid)]
  · simp [hid]

/-- A delete of a batch makes the table shorter. -/
theorem Limited.length_delete (h : Limited key p n rows ids) (hnodup : (rows.map key).Nodup)
    (hne : ids ≠ []) : (deleteKeys key ids rows).length < rows.length := by
  have hsplit := List.length_eq_length_filter_add (l := rows) fun r => decide (key r ∈ ids)
  have hchosen := h.countP_mem hnodup
  rw [List.countP_eq_length_filter] at hchosen
  have hpos := List.length_pos_iff.mpr hne
  have hrest : (rows.filter fun r => !decide (key r ∈ ids)) = deleteKeys key ids rows := by
    unfold deleteKeys
    exact List.filter_congr fun r _ => by simp
  rw [hrest] at hsplit
  omega

/-- A batch that is not full held all that was eligible. -/
theorem Limited.countP_delete_eq_zero (h : Limited key p n rows ids) (hnodup : (rows.map key).Nodup)
    (hshort : ids.length < n) : (deleteKeys key ids rows).countP p = 0 := by
  have hdelete := h.countP_delete hnodup
  have hlength := h.2.2
  omega

theorem nodup_deleteKeys (hnodup : (rows.map key).Nodup) (ids : List κ) :
    ((deleteKeys key ids rows).map key).Nodup := hnodup.sublist (List.filter_sublist.map key)

end

/-! ## A sweep alone -/

section

variable {key : ρ → κ} {eligible : φ → ρ → Bool} {before rows : List ρ} {phases rest : List φ} {p : φ}
  {sw : Sweep φ κ}

/-- A delete moves rows of the phase from the table to what has been deleted. -/
theorem Swept.delete (h : Swept key eligible before phases (rows, sw)) (hdisjoint : DisjointPhases eligible phases)
    (hphases : sw.phases = p :: rest) {ids : List κ} (hstage : sw.stage = .deleting ids) :
    Swept key eligible before phases
      (deleteKeys key ids rows, (sw.count ids.length).goto .selecting) := by
  obtain ⟨hne, hlimited⟩ := h.selected p rest ids hphases hstage
  -- the phases are disjoint, so the rows of later ones stay
  have hother : ∀ q ∈ rest, ∀ r ∈ rows, eligible p r = true → eligible q r = false := by
    obtain ⟨closed, hclosed, -⟩ := h.reported
    intro q hq r _ hp
    rw [DisjointPhases, hclosed, hphases, List.pairwise_append, List.pairwise_cons] at hdisjoint
    exact hdisjoint.2.1.1 q hq r hp
  refine ⟨nodup_deleteKeys h.nodup ids, h.wet, h.batch_pos, h.reported, ?_, ?_, nofun, ?_, nofun⟩
  · rw [← h.kept]
    refine hlimited.filter_delete h.nodup ?_
    intro r _ hp
    simp [untouched, Sweep.goto, Sweep.count, hphases, hp]
  · intro q rest' hq
    obtain ⟨rfl, rfl⟩ := List.cons.inj (hphases.symm.trans hq)
    have hcount := hlimited.countP_delete h.nodup
    have hcurrent := h.current p rest hphases
    simp only [Sweep.goto, Sweep.count] at hcount hcurrent ⊢
    omega
  · intro q hq
    simp only [Sweep.goto, Sweep.count, hphases, List.tail_cons] at hq ⊢
    rw [← h.later q (by simpa [hphases] using hq), List.countP_eq_length_filter,
      List.countP_eq_length_filter, hlimited.filter_delete h.nodup (hother q hq)]

/-- The rows of a phase are counted. -/
theorem Swept.step_counting (h : Swept key eligible before phases (rows, sw)) (hphases : sw.phases = p :: rest)
    (hstage : sw.stage = .counting) {s' : List ρ × Sweep φ κ} {chosen : List κ}
    (hstep : sweepStep key eligible (rows, sw) chosen = some s') :
    Swept key eligible before phases s' ∧ s'.1 = rows ∧ s'.2.work < sw.work := by
  have hcurrent := h.current p rest hphases
  have hdeleted := h.counting hstage
  have hwet : sw.dryRun = false := h.wet
  simp only at hcurrent hdeleted
  simp only [sweepStep, hphases, hstage, hwet, Bool.false_eq_true, false_or] at hstep
  split at hstep
  · rename_i hnone
    obtain rfl := Option.some.inj hstep
    exact ⟨h.close hphases hnone (by simpa [hdeleted] using hcurrent), rfl, Sweep.work_close_lt hphases _⟩
  · obtain rfl := Option.some.inj hstep
    refine ⟨{ h with counting := nofun, selected := nofun }, rfl, ?_⟩
    simp [Sweep.work, Sweep.goto, hstage]

/-- A batch is selected. -/
theorem Swept.step_selecting (h : Swept key eligible before phases (rows, sw)) (hphases : sw.phases = p :: rest)
    (hstage : sw.stage = .selecting) {s' : List ρ × Sweep φ κ} {chosen : List κ}
    (hstep : sweepStep key eligible (rows, sw) chosen = some s') :
    Swept key eligible before phases s' ∧ s'.1 = rows ∧ s'.2.work < sw.work := by
  have hcurrent := h.current p rest hphases
  simp only at hcurrent
  simp only [sweepStep, hphases, hstage, Option.ite_none_right_eq_some] at hstep
  obtain ⟨hlimited, hstep⟩ := hstep
  split at hstep
  · rename_i hempty
    obtain rfl := Option.some.inj hstep
    -- a query with a positive limit returns nothing when there is nothing
    have hnone : rows.countP (eligible p) = 0 := by
      have hlength := hlimited.2.2
      have hpos := h.batch_pos
      rw [hempty, List.length_nil] at hlength
      simp only at hpos
      omega
    exact ⟨h.close hphases hnone (by simpa [hnone] using hcurrent), rfl, Sweep.work_close_lt hphases _⟩
  · rename_i hne
    obtain rfl := Option.some.inj hstep
    refine ⟨{ h with counting := nofun, selected := ?_ }, rfl, ?_⟩
    · rintro p' rest' ids hp hids
      obtain ⟨rfl, -⟩ := List.cons.inj (hphases.symm.trans hp)
      obtain rfl := Stage.deleting.inj hids
      exact ⟨hne, hlimited⟩
    · simp [Sweep.work, Sweep.goto, hstage]

/-- A batch is deleted. -/
theorem Swept.step_deleting (h : Swept key eligible before phases (rows, sw))
    (hdisjoint : DisjointPhases eligible phases) (hphases : sw.phases = p :: rest) {ids : List κ}
    (hstage : sw.stage = .deleting ids) {s' : List ρ × Sweep φ κ} {chosen : List κ}
    (hstep : sweepStep key eligible (rows, sw) chosen = some s') :
    Swept key eligible before phases s' ∧ s'.1.length < rows.length ∧ s'.2.work < sw.work + 2 := by
  obtain ⟨hne, hlimited⟩ := h.selected p rest ids hphases hstage
  have hdelete := h.delete hdisjoint hphases hstage
  have hshorter := hlimited.length_delete h.nodup hne
  simp only [sweepStep, hphases, hstage, Option.some.injEq] at hstep
  subst hstep
  simp only at hshorter ⊢
  split
  · rename_i hshort
    -- a batch that is not full is the last one of its phase
    have hnone := hlimited.countP_delete_eq_zero h.nodup hshort
    have hdeleted := hdelete.current p rest hphases
    rw [hnone, Nat.add_zero] at hdeleted
    refine ⟨hdelete.close hphases hnone hdeleted, hshorter, ?_⟩
    have hless : ((sw.count ids.length).close (sw.count ids.length).deleted).work < sw.work :=
      Sweep.work_close_lt hphases _
    exact Nat.lt_add_right 2 hless
  · refine ⟨hdelete, hshorter, ?_⟩
    simp [Sweep.work, Sweep.goto, Sweep.count, hstage]

/-- A statement goes on with the sweep, and leaves less to do. -/
theorem Swept.step (hdisjoint : DisjointPhases eligible phases) {s s' : List ρ × Sweep φ κ} {chosen : List κ}
    (h : Swept key eligible before phases s) (hstep : sweepStep key eligible s chosen = some s') :
    Swept key eligible before phases s' ∧
      2 * s'.1.length + s'.2.work < 2 * s.1.length + s.2.work := by
  obtain ⟨rows, sw⟩ := s
  cases hphases : sw.phases with
  | nil => simp [sweepStep, hphases] at hstep
  | cons p rest =>
      cases hstage : sw.stage with
      | counting =>
          obtain ⟨hswept, hrows, hless⟩ := h.step_counting hphases hstage hstep
          exact ⟨hswept, by simp only [hrows]; omega⟩
      | selecting =>
          obtain ⟨hswept, hrows, hless⟩ := h.step_selecting hphases hstage hstep
          exact ⟨hswept, by simp only [hrows]; omega⟩
      | deleting ids =>
          obtain ⟨hswept, hshorter, hless⟩ := h.step_deleting hdisjoint hphases hstage hstep
          exact ⟨hswept, by simp only; omega⟩

/-- Until its phases are over, a sweep can go on. -/
theorem Swept.exists_step {s : List ρ × Sweep φ κ} (h : Swept key eligible before phases s)
    (hphases : s.2.phases ≠ []) : ∃ chosen s', sweepStep key eligible s chosen = some s' := by
  obtain ⟨rows, sw⟩ := s
  cases hcons : sw.phases with
  | nil => exact absurd hcons hphases
  | cons p rest =>
      obtain ⟨ids, hids⟩ := exists_limited h.nodup (eligible p) sw.batch
      refine ⟨ids, Option.isSome_iff_exists.mp ?_⟩
      simp only [sweepStep, hcons]
      cases sw.stage with
      | counting => simp only; split <;> rfl
      | selecting => simp only at hids ⊢; rw [if_pos hids]; split <;> rfl
      | deleting ids => rfl

/-- The result of a sweep: the table and the number reported for each phase. -/
abbrev SweepEnds (key : ρ → κ) (eligible : φ → ρ → Bool) (rows : List ρ) (sw : Sweep φ κ) (after : List ρ)
    (reported : List ℕ) : Prop :=
  Ends (sweepStep key eligible) (fun s => s.2.phases = []) (rows, sw)
    fun s => s.1 = after ∧ s.2.reported = reported

/-- Alone on a table, whatever rows its queries return, a sweep comes to an end, has deleted exactly the rows
that a phase is for, and reports their numbers. -/
theorem sweep_ends (hnodup : (rows.map key).Nodup) (hdisjoint : DisjointPhases eligible phases) (counted : Bool)
    {batch : ℕ} (hbatch : 0 < batch) :
    SweepEnds key eligible rows (.new phases counted false batch) (rows.filter (untouched eligible phases))
      (phases.map fun p => rows.countP (eligible p)) := by
  have hstep : ∀ s chosen s', Swept key eligible rows phases s → sweepStep key eligible s chosen = some s' →
      Swept key eligible rows phases s' ∧ 2 * s'.1.length + s'.2.work < 2 * s.1.length + s.2.work :=
    fun _ _ _ h hstep => h.step hdisjoint hstep
  exact ends_of_invariant hstep (fun _ h hopen => h.exists_step hopen) (fun _ h hdone => h.finished hdone)
    (swept_new hnodup counted hbatch)

/-- A dry run so far: phases counted, and nothing else. -/
structure DryRun (eligible : φ → ρ → Bool) (rows : List ρ) (phases : List φ) (s : List ρ × Sweep φ κ) :
    Prop where
  unchanged : s.1 = rows
  dry : s.2.dryRun = true
  counted : s.2.counted = true
  counting : s.2.stage = .counting
  reported : ∃ closed, phases = closed ++ s.2.phases ∧
    s.2.reported = closed.map fun p => rows.countP (eligible p)

theorem DryRun.step {s s' : List ρ × Sweep φ κ} {chosen : List κ} (h : DryRun eligible rows phases s)
    (hstep : sweepStep key eligible s chosen = some s') :
    DryRun eligible rows phases s' ∧ s'.2.phases.length < s.2.phases.length := by
  obtain ⟨rows', sw⟩ := s
  obtain ⟨rfl, hdry, hcounted, hcounting, closed, hclosed, hreported⟩ := h
  simp only at hdry hcounted hcounting hclosed hreported
  cases hphases : sw.phases with
  | nil => simp [sweepStep, hphases] at hstep
  | cons p rest =>
      simp only [sweepStep, hphases, hcounting, hdry, true_or, if_true, Option.some.injEq] at hstep
      subst hstep
      refine ⟨⟨rfl, hdry, hcounted, ?_, closed ++ [p], ?_, ?_⟩, ?_⟩
      · simp [Sweep.close, Sweep.firstStage, hcounted]
      · simp [Sweep.close, hclosed, hphases]
      · simp [Sweep.close, hreported]
      · simp [Sweep.close, hphases]

/-- A dry run reports the same numbers, and changes nothing. -/
theorem dryRun_ends (key : ρ → κ) (eligible : φ → ρ → Bool) (rows : List ρ) (phases : List φ) (batch : ℕ) :
    SweepEnds key eligible rows (.new phases true true batch) rows
      (phases.map fun p => rows.countP (eligible p)) := by
  have hnew : DryRun eligible rows phases (rows, (.new phases true true batch : Sweep φ κ)) :=
    ⟨rfl, rfl, rfl, rfl, [], rfl, rfl⟩
  have hstep : ∀ s chosen s', DryRun eligible rows phases s → sweepStep key eligible s chosen = some s' →
      DryRun eligible rows phases s' ∧ s'.2.phases.length < s.2.phases.length :=
    fun _ _ _ h hstep => h.step hstep
  refine ends_of_invariant hstep ?_ ?_ hnew
  · rintro ⟨rows', sw⟩ h hopen
    obtain ⟨p, rest, hphases⟩ := List.exists_cons_of_ne_nil hopen
    have hdry : sw.dryRun = true := h.dry
    have hcounting : sw.stage = .counting := h.counting
    simp only at hphases
    exact ⟨[], (rows', sw.close (rows'.countP (eligible p))), by simp [sweepStep, hphases, hcounting, hdry]⟩
  · intro s h hdone
    obtain ⟨closed, hclosed, hreported⟩ := h.reported
    rw [hdone, List.append_nil] at hclosed
    exact ⟨h.unchanged, hclosed ▸ hreported⟩

end

/-! ## Sweeps beside writers -/

/-- A table with the writes to its rows and the calls that start a sweep. -/
structure Retention (ρ κ φ τ υ : Type*) where
  key : ρ → κ
  eligible : φ → ρ → Bool
  write : υ → ρ → ρ
  call : τ → Option (Sweep φ κ)
  key_write : ∀ w r, key (write w r) = key r
  call_fresh : ∀ c sw ids, call c = some sw → sw.stage ≠ .deleting ids

/-- The table, the keys that have been used, and the sweeps in the order of their calls. -/
structure Retained (ρ κ φ : Type*) where
  rows : List ρ
  used : List κ
  sweeps : List (Sweep φ κ)

/-- A sweep is called, executes a statement, or deletes and does not hear of it, so that it deletes again;
a row is written or inserted. -/
inductive RetentionAction (ρ κ τ υ : Type*)
  | call (c : τ)
  | move (i : ℕ) (chosen : List κ)
  | lose (i : ℕ)
  | write (k : κ) (w : υ)
  | insert (r : ρ)

/-- The phase and the keys of the delete that comes next. -/
def Sweep.pending (sw : Sweep φ κ) : Option (φ × List κ) :=
  match sw.phases, sw.stage with
  | p :: _, .deleting ids => some (p, ids)
  | _, _ => none

/-- A statement of a sweep changes the table by its delete only, and only a query makes the next delete. -/
theorem sweepStep_pending {key : ρ → κ} {eligible : φ → ρ → Bool} {rows rows' : List ρ}
    {sw sw' : Sweep φ κ} {chosen : List κ}
    (hstep : sweepStep key eligible (rows, sw) chosen = some (rows', sw')) :
    List.Sublist rows' rows ∧ ∀ delete ∈ sw'.pending,
      rows' = rows ∧ Limited key (eligible delete.1) sw.batch rows delete.2 := by
  have hclosed : ∀ (sw : Sweep φ κ) (n : ℕ), (sw.close n).pending = none := by
    intro sw n
    unfold Sweep.pending
    split
    · rename_i hstage
      exact absurd hstage (Sweep.firstStage_ne_deleting _ _)
    · rfl
  have hselecting : ∀ sw : Sweep φ κ, (sw.goto .selecting).pending = none := by
    intro sw
    unfold Sweep.pending
    split
    · rename_i hstage
      cases hstage
    · rfl
  cases hphases : sw.phases with
  | nil => simp [sweepStep, hphases] at hstep
  | cons p rest =>
      simp only [sweepStep, hphases] at hstep
      cases hstage : sw.stage with
      | counting =>
          simp only [hstage] at hstep
          split at hstep <;> obtain ⟨rfl, rfl⟩ := Prod.mk.inj (Option.some.inj hstep)
          · exact ⟨List.Sublist.refl _, by simp [hclosed]⟩
          · exact ⟨List.Sublist.refl _, by simp [hselecting]⟩
      | selecting =>
          simp only [hstage, Option.ite_none_right_eq_some] at hstep
          obtain ⟨hlimited, hstep⟩ := hstep
          split at hstep <;> obtain ⟨rfl, rfl⟩ := Prod.mk.inj (Option.some.inj hstep)
          · exact ⟨List.Sublist.refl _, by simp [hclosed]⟩
          · refine ⟨List.Sublist.refl _, ?_⟩
            intro delete hdelete
            simp only [Sweep.pending, Sweep.goto, hphases, Option.mem_def, Option.some.injEq] at hdelete
            subst hdelete
            exact ⟨rfl, hlimited⟩
      | deleting ids =>
          simp only [hstage] at hstep
          obtain ⟨rfl, rfl⟩ := Prod.mk.inj (Option.some.inj hstep)
          refine ⟨List.filter_sublist, ?_⟩
          split
          · simp [hclosed]
          · simp [hselecting]

namespace Retention

variable (R : Retention ρ κ φ τ υ)

/-- The interleaving semantics. A new row has a new key. -/
def step (s : Retained ρ κ φ) : RetentionAction ρ κ τ υ → Option (Retained ρ κ φ)
  | .call c =>
      match R.call c with
      | none => some s
      | some sw => some { s with sweeps := s.sweeps ++ [sw] }
  | .move i chosen =>
      match s.sweeps[i]? with
      | none => none
      | some sw =>
          (sweepStep R.key R.eligible (s.rows, sw) chosen).map fun next =>
            { s with rows := next.1, sweeps := s.sweeps.set i next.2 }
  | .lose i =>
      (s.sweeps[i]?.bind Sweep.pending).map fun delete =>
        { s with rows := deleteKeys R.key delete.2 s.rows }
  | .write k w => some { s with rows := updateKey R.key k (R.write w) s.rows }
  | .insert r =>
      if R.key r ∈ s.used then none else some { s with rows := s.rows ++ [r], used := s.used ++ [R.key r] }

/-- A table before any sweep. -/
def init (rows : List ρ) : Retained ρ κ φ := ⟨rows, rows.map R.key, []⟩

/-- All that the delete of a sweep finds is eligible for its phase. -/
def DeleteFits (s : Retained ρ κ φ) (i : ℕ) : Prop :=
  ∀ delete ∈ s.sweeps[i]?.bind Sweep.pending, ∀ r ∈ s.rows, R.key r ∈ delete.2 →
    R.eligible delete.1 r = true

/-- An action deletes eligible rows only. -/
def DeletesEligible (s : Retained ρ κ φ) : RetentionAction ρ κ τ υ → Prop
  | .move i _ => R.DeleteFits s i
  | .lose i => R.DeleteFits s i
  | _ => True

instance (s : Retained ρ κ φ) (i : ℕ) : Decidable (R.DeleteFits s i) :=
  inferInstanceAs (Decidable (∀ delete ∈ s.sweeps[i]?.bind Sweep.pending, _))

instance (s : Retained ρ κ φ) : ∀ a, Decidable (R.DeletesEligible s a)
  | .move i _ => inferInstanceAs (Decidable (R.DeleteFits s i))
  | .lose i => inferInstanceAs (Decidable (R.DeleteFits s i))
  | .call _ | .write _ _ | .insert _ => inferInstanceAs (Decidable True)

/-- A write to a row that a sweep is about to delete leaves it eligible for the phase of the sweep. -/
def Spares (s : Retained ρ κ φ) : RetentionAction ρ κ τ υ → Prop
  | .write k w =>
      ∀ sw ∈ s.sweeps, ∀ delete ∈ sw.pending, k ∈ delete.2 → ∀ r ∈ s.rows, R.key r = k →
        R.eligible delete.1 (R.write w r) = true
  | _ => True

instance (s : Retained ρ κ φ) : ∀ a, Decidable (R.Spares s a)
  | .write k w =>
      inferInstanceAs (Decidable (∀ sw ∈ s.sweeps, ∀ delete ∈ sw.pending, k ∈ delete.2 → ∀ r ∈ s.rows,
        R.key r = k → R.eligible delete.1 (R.write w r) = true))
  | .move _ _ | .lose _ | .call _ | .insert _ => inferInstanceAs (Decidable True)

/-- What is about to be deleted is eligible. -/
structure Selected (s : Retained ρ κ φ) : Prop where
  nodup : (s.rows.map R.key).Nodup
  used : ∀ r ∈ s.rows, R.key r ∈ s.used
  selected : ∀ sw ∈ s.sweeps, ∀ delete ∈ sw.pending, ∀ k ∈ delete.2, k ∈ s.used
  fits : ∀ sw ∈ s.sweeps, ∀ delete ∈ sw.pending, ∀ r ∈ s.rows, R.key r ∈ delete.2 →
    R.eligible delete.1 r = true

variable {R}

section

variable {s : Retained ρ κ φ}

omit [DecidableEq κ] in
theorem Selected.deleteFits (h : R.Selected s) (i : ℕ) : R.DeleteFits s i := by
  intro delete hdelete
  obtain ⟨sw, hsw, hpending⟩ := Option.bind_eq_some_iff.mp hdelete
  exact h.fits sw (List.mem_of_getElem? hsw) delete hpending

omit [DecidableEq κ] in
/-- With fewer rows, all the sweeps' deletes still fit. -/
theorem Selected.sublist (h : R.Selected s) {rows : List ρ} (hrows : List.Sublist rows s.rows) :
    R.Selected { s with rows } where
  nodup := h.nodup.sublist (hrows.map R.key)
  used r hr := h.used r (hrows.subset hr)
  selected := h.selected
  fits sw hsw delete hdelete r hr := h.fits sw hsw delete hdelete r (hrows.subset hr)

omit [DecidableEq κ] in
/-- A sweep at the place of another, whose delete fits. -/
theorem Selected.set (h : R.Selected s) (i : ℕ) {sw : Sweep φ κ}
    (hselected : ∀ delete ∈ sw.pending, ∀ k ∈ delete.2, k ∈ s.used)
    (hfits : ∀ delete ∈ sw.pending, ∀ r ∈ s.rows, R.key r ∈ delete.2 → R.eligible delete.1 r = true) :
    R.Selected { s with sweeps := s.sweeps.set i sw } where
  nodup := h.nodup
  used := h.used
  selected sw' hsw' := by
    rcases List.mem_or_eq_of_mem_set hsw' with hmem | rfl
    · exact h.selected sw' hmem
    · exact hselected
  fits sw' hsw' := by
    rcases List.mem_or_eq_of_mem_set hsw' with hmem | rfl
    · exact h.fits sw' hmem
    · exact hfits

/-- A statement of a sweep. -/
theorem Selected.move (h : R.Selected s) (i : ℕ) {sw : Sweep φ κ} {chosen : List κ}
    {next : List ρ × Sweep φ κ} (hstep : sweepStep R.key R.eligible (s.rows, sw) chosen = some next) :
    R.Selected { s with rows := next.1, sweeps := s.sweeps.set i next.2 } := by
  obtain ⟨hrows, hquery⟩ := sweepStep_pending hstep
  refine (h.sublist hrows).set i ?_ ?_
  · intro delete hdelete k hk
    obtain ⟨r, hr, rfl, -⟩ := (hquery delete hdelete).2.2.1 k hk
    exact h.used r hr
  · intro delete hdelete r hr hkey
    exact (hquery delete hdelete).2.eligible h.nodup (hrows.subset hr) hkey

/-- A write that spares what the sweeps have selected. -/
theorem Selected.updateKey (h : R.Selected s) {k : κ} {w : υ}
    (hspares : R.Spares s (.write k w : RetentionAction ρ κ τ υ)) :
    R.Selected { s with rows := Lib.updateKey R.key k (R.write w) s.rows } where
  nodup := by
    rw [map_key_updateKey (R.key_write w)]
    exact h.nodup
  used r hr := by
    obtain ⟨r', hr', rfl⟩ := List.mem_map.mp hr
    split
    · rw [R.key_write]
      exact h.used r' hr'
    · exact h.used r' hr'
  selected := h.selected
  fits sw hsw delete hdelete r hr hkey := by
    obtain ⟨r', hr', rfl⟩ := List.mem_map.mp hr
    split at hkey
    · rename_i hk
      rw [if_pos hk]
      rw [R.key_write, hk] at hkey
      exact hspares sw hsw delete hdelete hkey r' hr' hk
    · rename_i hk
      rw [if_neg hk]
      exact h.fits sw hsw delete hdelete r' hr' hkey

omit [DecidableEq κ] in
/-- A new row is none that a sweep has selected. -/
theorem Selected.insert (h : R.Selected s) {r : ρ} (hnew : R.key r ∉ s.used) :
    R.Selected { s with rows := s.rows ++ [r], used := s.used ++ [R.key r] } where
  nodup := by
    have hfresh : R.key r ∉ s.rows.map R.key := by
      intro hmem
      obtain ⟨r', hr', hkey⟩ := List.mem_map.mp hmem
      exact hnew (hkey ▸ h.used r' hr')
    rw [List.map_append, List.nodup_append]
    refine ⟨h.nodup, by simp, ?_⟩
    intro k hk k' hk'
    obtain rfl : k' = R.key r := by simpa using hk'
    exact fun heq => hfresh (heq ▸ hk)
  used r' hr' := by
    rcases List.mem_append.mp hr' with hold | hlast
    · exact List.mem_append_left _ (h.used r' hold)
    · obtain rfl : r' = r := by simpa using hlast
      simp
  selected sw hsw delete hdelete k hk := List.mem_append_left _ (h.selected sw hsw delete hdelete k hk)
  fits sw hsw delete hdelete r' hr' hkey := by
    rcases List.mem_append.mp hr' with hold | hlast
    · exact h.fits sw hsw delete hdelete r' hold hkey
    · obtain rfl : r' = r := by simpa using hlast
      exact absurd (h.selected sw hsw delete hdelete _ hkey) hnew

theorem Selected.step (h : R.Selected s) {a : RetentionAction ρ κ τ υ} {s' : Retained ρ κ φ}
    (hspares : R.Spares s a) (hstep : R.step s a = some s') : R.Selected s' := by
  cases a with
  | call c =>
      simp only [Retention.step] at hstep
      cases hcall : R.call c with
      | none =>
          simp only [hcall, Option.some.injEq] at hstep
          exact hstep ▸ h
      | some sw =>
          simp only [hcall, Option.some.injEq] at hstep
          subst hstep
          -- a sweep begins with a query
          have hfresh : sw.pending = none := by
            unfold Sweep.pending
            split
            · rename_i hstage
              exact absurd hstage (R.call_fresh c sw _ hcall)
            · rfl
          refine ⟨h.nodup, h.used, ?_, ?_⟩
          · intro sw' hsw' delete hdelete
            rcases List.mem_append.mp hsw' with hold | hlast
            · exact h.selected sw' hold delete hdelete
            · obtain rfl : sw' = sw := by simpa using hlast
              simp [hfresh] at hdelete
          · intro sw' hsw' delete hdelete
            rcases List.mem_append.mp hsw' with hold | hlast
            · exact h.fits sw' hold delete hdelete
            · obtain rfl : sw' = sw := by simpa using hlast
              simp [hfresh] at hdelete
  | move i chosen =>
      simp only [Retention.step] at hstep
      cases hsw : s.sweeps[i]? with
      | none => simp [hsw] at hstep
      | some sw =>
          simp only [hsw] at hstep
          obtain ⟨next, hnext, rfl⟩ := Option.map_eq_some_iff.mp hstep
          exact h.move i hnext
  | lose i =>
      obtain ⟨delete, -, rfl⟩ := Option.map_eq_some_iff.mp hstep
      exact h.sublist List.filter_sublist
  | write k w =>
      obtain rfl := Option.some.inj hstep
      exact h.updateKey hspares
  | insert r =>
      simp only [Retention.step, Option.ite_none_left_eq_some] at hstep
      obtain ⟨hnew, hstep⟩ := hstep
      obtain rfl := Option.some.inj hstep
      exact h.insert hnew

end

variable (R) in
/-- In every schedule whose writes spare what the sweeps have selected, only eligible rows are deleted. -/
theorem deletesEligible_of_spares {rows : List ρ} (hnodup : (rows.map R.key).Nodup)
    {as : List (RetentionAction ρ κ τ υ)} (h : Guarded R.step R.Spares (R.init rows) as) :
    Guarded R.step R.DeletesEligible (R.init rows) as := by
  have hinit : R.Selected (R.init rows) :=
    ⟨hnodup, fun r hr => List.mem_map_of_mem hr, by simp [init], by simp [init]⟩
  refine guarded_of_invariant (fun _ _ _ h hspares hstep => h.step hspares hstep) ?_ hinit h
  intro s a hselected _
  cases a with
  | move i _ => exact hselected.deleteFits i
  | lose i => exact hselected.deleteFits i
  | call _ => trivial
  | write _ _ => trivial
  | insert _ => trivial

end Retention

end ApexChainx.Lib
