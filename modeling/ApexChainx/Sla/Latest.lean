import ApexChainx.Sla.Repository

/-!
# One current result per outage

`create` demotes and inserts, an applied dispute demotes and promotes, a proposal only inserts. Each of
them keeps `LatestInv`: ids are unique, and every outage that has a row at all has exactly one row with
the `is_latest` flag. Which row a `create` call returns follows from it: the latest one, except where
the compute hash of the payload finds a row that has been superseded since.
-/

namespace ApexChainx.Sla

open ApexChainx.Lib

/-- The invariant of `sla_results` over whole histories of calls. -/
structure LatestInv (t : SlaTables) : Prop where
  ids_nodup : (t.results.map SLAResultRow.id).Nodup
  ids_lt : ∀ r ∈ t.results, r.id < t.nextResultId
  one_latest : ∀ r ∈ t.results, t.results.countP (latestOf r.outageId) = 1

theorem latestInv_empty : LatestInv SlaTables.empty :=
  ⟨List.nodup_nil, by simp [SlaTables.empty], by simp [SlaTables.empty]⟩

/-- The outage has at least one row. -/
def HasRow (results : List SLAResultRow) (outageId : String) : Prop :=
  ∃ r ∈ results, r.outageId = outageId

/-! ## What the statements do to the table -/

/-- A successful insert appends the row, and its three constraints held. -/
theorem insertResult_eq_ok {env : CallEnv} {t t' : SlaTables} {r : SLAResultRow}
    (h : insertResult env t r = .ok t') :
    t' = { t with results := t.results ++ [r], nextResultId := t.nextResultId + 1 } ∧
      env.outageExists r.outageId = true ∧ hashTaken t.results r = false ∧
      (r.isLatest = true → t.results.countP (latestOf r.outageId) = 0) := by
  unfold insertResult at h
  split at h
  · cases h
  · split at h
    · cases h
    · rename_i hfk
      split at h
      · cases h
      · rename_i hhash
        split at h
        · cases h
        · rename_i hlatest
          simp only [Outcome.ok.injEq] at h
          refine ⟨h.symm, by simpa using hfk, by simpa using hhash, ?_⟩
          intro hr
          rw [List.countP_eq_zero]
          intro x hx hlx
          apply hlatest
          rw [hr, Bool.true_and, List.any_eq_true]
          exact ⟨x, hx, hlx⟩

/-- A successful flag update rewrites the one row, and the partial unique index held after it. -/
theorem setLatest_eq_ok {results rows : List SLAResultRow} {id : ℕ} {o : String} {b : Bool}
    (h : setLatest results id o b = .ok rows) :
    rows = updateKey SLAResultRow.id id (fun r => { r with isLatest := b }) results ∧
      rows.countP (latestOf o) ≤ 1 := by
  unfold setLatest at h
  simp only at h
  split at h
  · rename_i hle
    simp only [Outcome.ok.injEq] at h
    exact ⟨h.symm, h ▸ hle⟩
  · cases h

/-- Setting a flag keeps every row's outage. -/
theorem map_outageId_updateKey (id : ℕ) (b : Bool) (results : List SLAResultRow) :
    (updateKey SLAResultRow.id id (fun r => { r with isLatest := b }) results).map
      SLAResultRow.outageId = results.map SLAResultRow.outageId := by
  unfold updateKey
  rw [List.map_map]
  refine List.map_congr_left fun r _ => ?_
  simp only [Function.comp_apply]
  split <;> rfl

/-- Demotion keeps ids. -/
theorem map_id_demoteLatest (o : String) (results : List SLAResultRow) :
    (demoteLatest o results).map SLAResultRow.id = results.map SLAResultRow.id := by
  unfold demoteLatest
  rw [List.map_map]
  refine List.map_congr_left fun r _ => ?_
  simp only [Function.comp_apply]
  split <;> rfl

/-- Demotion keeps every row's outage. -/
theorem map_outageId_demoteLatest (o : String) (results : List SLAResultRow) :
    (demoteLatest o results).map SLAResultRow.outageId = results.map SLAResultRow.outageId := by
  unfold demoteLatest
  rw [List.map_map]
  refine List.map_congr_left fun r _ => ?_
  simp only [Function.comp_apply]
  split <;> rfl

/-- The flag of one row after demotion. -/
private theorem latestOf_demoted (o o' : String) (r : SLAResultRow) :
    latestOf o' (if latestOf o r then { r with isLatest := false } else r)
      = (!decide (o' = o) && latestOf o' r) := by
  by_cases hr : latestOf o r = true
  · rw [if_pos hr]
    simp only [latestOf, Bool.and_eq_true, decide_eq_true_eq] at hr
    by_cases ho : o' = o
    · simp [latestOf, ho]
    · have hro : r.outageId ≠ o' := fun hro => ho (hro.symm.trans hr.1)
      simp [latestOf, ho, hro]
  · rw [if_neg hr]
    by_cases ho : o' = o
    · subst ho
      simp [hr]
    · simp [ho]

/-- Demotion leaves the outage without a latest row and every other outage as it was. -/
theorem countP_demoteLatest (o o' : String) (results : List SLAResultRow) :
    (demoteLatest o results).countP (latestOf o')
      = if o' = o then 0 else results.countP (latestOf o') := by
  induction results with
  | nil => simp [demoteLatest]
  | cons r results ih =>
      have hcons : demoteLatest o (r :: results)
          = (if latestOf o r then { r with isLatest := false } else r) :: demoteLatest o results := rfl
      rw [hcons, List.countP_cons, List.countP_cons, ih, latestOf_demoted]
      by_cases ho : o' = o <;> simp [ho]

/-- Demoting when there is nothing to demote is the identity, so the code's test does not matter. -/
theorem demote_if_present (o : String) (t : SlaTables) :
    (if (t.results.find? (latestOf o)).isSome then
      { t with results := demoteLatest o t.results } else t)
      = { t with results := demoteLatest o t.results } := by
  split
  · rfl
  · rename_i hnone
    have hall : ∀ r ∈ t.results, ¬ latestOf o r = true := by
      rw [Option.not_isSome_iff_eq_none, List.find?_eq_none] at hnone
      exact hnone
    have hid : demoteLatest o t.results = t.results := by
      unfold demoteLatest
      conv_rhs => rw [← List.map_id t.results]
      refine List.map_congr_left fun r hr => ?_
      rw [if_neg (hall r hr)]
      rfl
    rw [hid]

/-! ## What each call does -/

/-- The insert of `create`, when it goes through: the outage's rows are demoted and the new row is
appended as its latest. -/
theorem insertLatest_eq_ok {env : CallEnv} {p : SLAPayload} {t t' : SlaTables} {r : SLAResult}
    (h : insertLatest env p t = (.ok r, t')) :
    r = (newRow env t.nextResultId p).toResult ∧
      t' = { t with
        results := demoteLatest p.outageId t.results ++ [newRow env t.nextResultId p]
        nextResultId := t.nextResultId + 1 } := by
  unfold insertLatest at h
  simp only [demote_if_present] at h
  split at h
  · cases h
  · rename_i t'' hins
    obtain ⟨rfl, -⟩ := insertResult_eq_ok hins
    simp only [Prod.mk.injEq, Outcome.ok.injEq] at h
    exact ⟨h.1.symm, h.2.symm⟩

/-- The insert of `create`, when it fails, leaves the tables as they were. -/
theorem insertLatest_eq_error {env : CallEnv} {p : SLAPayload} {t t' : SlaTables} {e : ApiError}
    (h : insertLatest env p t = (.error e, t')) : t' = t := by
  unfold insertLatest at h
  simp only at h
  split at h
  · simp only [Prod.mk.injEq] at h
    exact h.2.symm
  · cases h

/-- Demoting and appending a latest row keeps the invariant. -/
theorem LatestInv.insertLatest {t : SlaTables} (h : LatestInv t) (env : CallEnv) (p : SLAPayload) :
    LatestInv { t with
      results := demoteLatest p.outageId t.results ++ [newRow env t.nextResultId p]
      nextResultId := t.nextResultId + 1 } := by
  have hmemId : ∀ r ∈ demoteLatest p.outageId t.results, r.id ∈ t.results.map SLAResultRow.id := by
    intro r hr
    rw [← map_id_demoteLatest p.outageId]
    exact List.mem_map_of_mem hr
  have hlt : ∀ r ∈ demoteLatest p.outageId t.results, r.id < t.nextResultId := by
    intro r hr
    obtain ⟨x, hx, hxr⟩ := List.mem_map.mp (hmemId r hr)
    exact hxr ▸ h.ids_lt x hx
  -- the demotion takes the outage's count to zero and the new row takes it to one
  have hcount : ∀ o, (demoteLatest p.outageId t.results ++ [newRow env t.nextResultId p]).countP
      (latestOf o) = if o = p.outageId then 1 else t.results.countP (latestOf o) := by
    intro o
    rw [List.countP_append, countP_demoteLatest]
    by_cases ho : o = p.outageId
    · simp [ho, latestOf, newRow]
    · simp [ho, latestOf, newRow, Ne.symm ho]
  constructor
  · simp only [List.map_append, List.map_cons, List.map_nil, map_id_demoteLatest]
    rw [List.nodup_append]
    refine ⟨h.ids_nodup, by simp, ?_⟩
    intro a ha b hb hab
    obtain ⟨x, hx, rfl⟩ := List.mem_map.mp ha
    rw [List.mem_singleton] at hb
    have hxlt := h.ids_lt x hx
    simp only [newRow] at hb
    omega
  · intro r hr
    simp only
    rcases List.mem_append.mp hr with hr | hr
    · have := hlt r hr
      omega
    · rw [List.mem_singleton] at hr
      simp [hr, newRow]
  · intro r hr
    simp only
    rw [hcount]
    split
    · rfl
    · rename_i hne
      rcases List.mem_append.mp hr with hr | hr
      · have hmem : r.outageId ∈ t.results.map SLAResultRow.outageId := by
          rw [← map_outageId_demoteLatest p.outageId]
          exact List.mem_map_of_mem hr
        obtain ⟨x, hx, hxr⟩ := List.mem_map.mp hmem
        rw [← hxr]
        exact h.one_latest x hx
      · rw [List.mem_singleton] at hr
        simp [hr, newRow] at hne

/-- What the two flag updates of an applied dispute do when the proposal is newer than the latest
row: the count of every outage that has rows stays one. -/
private theorem countP_swapLatest {results : List SLAResultRow}
    (hnodup : (results.map SLAResultRow.id).Nodup) {latest proposed : SLAResultRow}
    (hlatest : latest ∈ results) (hproposed : proposed ∈ results)
    (ho : latest.outageId = proposed.outageId) (hne : latest.id ≠ proposed.id)
    (hflag : latest.isLatest = true)
    (hone : results.countP (latestOf proposed.outageId) = 1) (o : String) :
    (updateKey SLAResultRow.id proposed.id (fun r => { r with isLatest := true })
      (updateKey SLAResultRow.id latest.id (fun r => { r with isLatest := false }) results)).countP
        (latestOf o) = results.countP (latestOf o) := by
  set rows := updateKey SLAResultRow.id latest.id (fun r => { r with isLatest := false }) results
    with hrows
  have hnodup' : (rows.map SLAResultRow.id).Nodup := by
    rw [hrows, map_key_updateKey (by intro r; rfl)]
    exact hnodup
  have hmem : proposed ∈ rows := by
    rw [hrows]
    exact List.mem_map.mpr ⟨proposed, hproposed, by rw [if_neg (Ne.symm hne)]⟩
  have h₁ := countP_updateKey (g := fun r => { r with isLatest := false })
    (latestOf o) hnodup hlatest
  have h₂ := countP_updateKey (g := fun r => { r with isLatest := true })
    (latestOf o) hnodup' hmem
  rw [← hrows] at h₁
  by_cases hoo : o = proposed.outageId
  · subst hoo
    -- the demotion leaves no latest row, so the proposal was not one
    have hl : latestOf proposed.outageId latest = true := by simp [latestOf, ho, hflag]
    have hl' : latestOf proposed.outageId { latest with isLatest := false } = false := by
      simp [latestOf]
    have hzero : rows.countP (latestOf proposed.outageId) = 0 := by
      rw [hl, hl', hone] at h₁
      simpa using h₁
    have hpf : latestOf proposed.outageId proposed = false := by
      simpa using List.countP_eq_zero.mp hzero proposed hmem
    rw [hpf, hzero] at h₂
    rw [hone]
    simpa [latestOf] using h₂
  · have hl : latestOf o latest = false := by simp [latestOf, ho, Ne.symm hoo]
    have hl' : latestOf o { latest with isLatest := false } = false := by simp [latestOf]
    have hp : latestOf o proposed = false := by simp [latestOf, Ne.symm hoo]
    have hp' : latestOf o { proposed with isLatest := true } = false := by
      simp [latestOf, Ne.symm hoo]
    rw [hl, hl'] at h₁
    rw [hp, hp'] at h₂
    simp only [Bool.false_eq_true, if_false, Nat.add_zero] at h₁ h₂
    omega

/-- A proposal cannot be promoted while another row of its outage has the flag: the index refuses the
second latest row. -/
theorem setLatest_refused {t : SlaTables} (h : LatestInv t) {proposed latest : SLAResultRow}
    (hmem : proposed ∈ t.results)
    (hfind : t.results.find? (latestOf proposed.outageId) = some latest)
    (hne : latest.id ≠ proposed.id) {rows : List SLAResultRow} :
    setLatest t.results proposed.id proposed.outageId true ≠ .ok rows := by
  intro hfirst
  have hone := h.one_latest proposed hmem
  obtain ⟨rfl, hle⟩ := setLatest_eq_ok hfirst
  have hcount := countP_updateKey (g := fun r => { r with isLatest := true })
    (latestOf proposed.outageId) h.ids_nodup hmem
  have hpf : latestOf proposed.outageId proposed = false := by
    by_contra hpt
    have heq := find?_eq_of_countP_eq_one hone hmem (by simpa using hpt)
    rw [hfind, Option.some.injEq] at heq
    exact hne (by rw [heq])
  have hpt : latestOf proposed.outageId { proposed with isLatest := true } = true := by
    simp [latestOf]
  rw [hpf, hpt, hone] at hcount
  simp only [Bool.false_eq_true, if_false, if_true] at hcount
  omega

/-- Applying a proposal keeps ids, outages and the number of latest rows of every outage; where it
would not, the flush fails. -/
theorem flushApply_eq_ok {t : SlaTables} (h : LatestInv t) {proposed : SLAResultRow}
    (hmem : proposed ∈ t.results) {rows : List SLAResultRow}
    (hok : flushApply t.results proposed = .ok rows) :
    rows.map SLAResultRow.id = t.results.map SLAResultRow.id ∧
      rows.map SLAResultRow.outageId = t.results.map SLAResultRow.outageId ∧
      ∀ o, rows.countP (latestOf o) = t.results.countP (latestOf o) := by
  have hone := h.one_latest proposed hmem
  unfold flushApply at hok
  split at hok
  · rename_i hnone
    rw [List.find?_eq_none] at hnone
    have hzero : t.results.countP (latestOf proposed.outageId) = 0 := List.countP_eq_zero.mpr hnone
    omega
  · rename_i latest hfind
    have hl := List.mem_of_find?_eq_some hfind
    have hlp := List.find?_some hfind
    simp only [latestOf, Bool.and_eq_true, decide_eq_true_eq] at hlp
    split at hok
    · simp only [Outcome.ok.injEq] at hok
      subst hok
      exact ⟨rfl, rfl, fun _ => rfl⟩
    · rename_i hne
      split at hok
      · split at hok
        · cases hok
        · rename_i rows₁ hfirst
          obtain ⟨rfl, -⟩ := setLatest_eq_ok hfirst
          obtain ⟨rfl, -⟩ := setLatest_eq_ok hok
          refine ⟨?_, ?_, ?_⟩
          · rw [map_key_updateKey (by intro r; rfl), map_key_updateKey (by intro r; rfl)]
          · rw [map_outageId_updateKey, map_outageId_updateKey]
          · exact countP_swapLatest h.ids_nodup hl hmem hlp.1 hne hlp.2 hone
      · -- an older proposal is promoted first, while the latest row still has the flag
        exfalso
        split at hok
        · cases hok
        · rename_i rows₁ hfirst
          exact setLatest_refused h hmem hfind hne hfirst

/-- The invariant depends on the rows only through their ids, their outages and the latest counts. -/
theorem LatestInv.of_same {t : SlaTables} (h : LatestInv t) {rows : List SLAResultRow}
    {disputes : List SLADispute} {n : ℕ}
    (hid : rows.map SLAResultRow.id = t.results.map SLAResultRow.id)
    (ho : rows.map SLAResultRow.outageId = t.results.map SLAResultRow.outageId)
    (hcount : ∀ o, rows.countP (latestOf o) = t.results.countP (latestOf o)) :
    LatestInv ⟨rows, disputes, t.nextResultId, n⟩ := by
  constructor
  · simp only
    rw [hid]
    exact h.ids_nodup
  · intro r hr
    have hmem : r.id ∈ t.results.map SLAResultRow.id := hid ▸ List.mem_map_of_mem hr
    obtain ⟨x, hx, hxr⟩ := List.mem_map.mp hmem
    exact hxr ▸ h.ids_lt x hx
  · intro r hr
    have hmem : r.outageId ∈ t.results.map SLAResultRow.outageId := ho ▸ List.mem_map_of_mem hr
    obtain ⟨x, hx, hxr⟩ := List.mem_map.mp hmem
    simp only
    rw [hcount, ← hxr]
    exact h.one_latest x hx

/-- Adding a row that is not latest, for an outage that has one, keeps the invariant. -/
theorem LatestInv.append {t : SlaTables} (h : LatestInv t) {r : SLAResultRow}
    {disputes : List SLADispute} (hid : r.id = t.nextResultId) (hflag : r.isLatest = false)
    (hrow : HasRow t.results r.outageId) :
    LatestInv ⟨t.results ++ [r], disputes, t.nextResultId + 1, t.nextDisputeId⟩ := by
  have hcount : ∀ o, (t.results ++ [r]).countP (latestOf o) = t.results.countP (latestOf o) := by
    intro o
    rw [List.countP_append]
    simp [latestOf, hflag]
  constructor
  · simp only [List.map_append, List.map_cons, List.map_nil]
    rw [List.nodup_append]
    refine ⟨h.ids_nodup, by simp, ?_⟩
    intro a ha b hb hab
    obtain ⟨x, hx, rfl⟩ := List.mem_map.mp ha
    rw [List.mem_singleton] at hb
    have hxlt := h.ids_lt x hx
    omega
  · intro x hx
    simp only
    rcases List.mem_append.mp hx with hx | hx
    · have := h.ids_lt x hx
      omega
    · rw [List.mem_singleton] at hx
      rw [hx, hid]
      exact Nat.lt_succ_self _
  · intro x hx
    simp only
    rw [hcount]
    rcases List.mem_append.mp hx with hx | hx
    · exact h.one_latest x hx
    · rw [List.mem_singleton] at hx
      obtain ⟨y, hy, hyo⟩ := hrow
      rw [hx, ← hyo]
      exact h.one_latest y hy

/-- What every call keeps: the invariant, and the rows an outage already has. -/
structure Keeps (t t' : SlaTables) : Prop where
  inv : LatestInv t → LatestInv t'
  hasRow : ∀ o, HasRow t.results o → HasRow t'.results o

theorem Keeps.refl (t : SlaTables) : Keeps t t := ⟨id, fun _ => id⟩

/-- Having a row depends only on the rows' outages. -/
theorem HasRow.of_map_eq {rows rows' : List SLAResultRow} {o : String} (h : HasRow rows o)
    (ho : rows'.map SLAResultRow.outageId = rows.map SLAResultRow.outageId) : HasRow rows' o := by
  obtain ⟨r, hr, hro⟩ := h
  have hmem : o ∈ rows'.map SLAResultRow.outageId := by
    rw [ho, ← hro]
    exact List.mem_map_of_mem hr
  obtain ⟨x, hx, hxo⟩ := List.mem_map.mp hmem
  exact ⟨x, hx, hxo⟩

theorem insertLatest_keeps (env : CallEnv) (p : SLAPayload) (t : SlaTables) :
    Keeps t (insertLatest env p t).2 := by
  cases hres : insertLatest env p t with
  | mk out t' =>
      cases out with
      | error e =>
          rw [insertLatest_eq_error hres]
          exact Keeps.refl t
      | ok r =>
          obtain ⟨-, rfl⟩ := insertLatest_eq_ok hres
          refine ⟨fun h => h.insertLatest env p, ?_⟩
          intro o ho
          obtain ⟨x, hx, hxo⟩ := ho.of_map_eq (map_outageId_demoteLatest p.outageId t.results)
          exact ⟨x, List.mem_append_left _ hx, hxo⟩

theorem create_keeps (env : CallEnv) (data : SLAData) (t : SlaTables) :
    Keeps t (create env data t).2 := by
  unfold create
  simp only
  split
  · exact Keeps.refl t
  · exact insertLatest_keeps env _ t

theorem createIfChanged_keeps (env : CallEnv) (data : SLAData) (t : SlaTables) :
    Keeps t (createIfChanged env data t).2 := by
  unfold createIfChanged
  simp only
  split
  · exact Keeps.refl t
  · split
    · split
      · exact Keeps.refl t
      · exact create_keeps env _ t
    · exact create_keeps env _ t

theorem flagDispute_keeps (env : CallEnv) (r : ℕ) (email reason : String) (t : SlaTables) :
    Keeps t (flagDispute env r email reason t).2 := by
  unfold flagDispute
  split
  · exact Keeps.refl t
  · split
    · exact Keeps.refl t
    · exact ⟨fun h => h.of_same rfl rfl (fun _ => rfl), fun _ => id⟩

/-- A proposal is added for the outage of its baseline, which has a row. -/
theorem createProposedSla_keeps (env : CallEnv) (r : ℕ) (req : ProposedRequest) (t : SlaTables) :
    Keeps t (createProposedSla env r req t).2 := by
  unfold createProposedSla
  split
  · exact Keeps.refl t
  · split
    · exact Keeps.refl t
    · rename_i d _ baseline hbase
      split
      · exact Keeps.refl t
      · rename_i new hcalc
        split
        · exact Keeps.refl t
        · rename_i t' hins
          obtain ⟨rfl, -⟩ := insertResult_eq_ok hins
          have hout : new.outageId = baseline.outageId := by
            unfold calculate at hcalc
            split at hcalc
            · cases hcalc
            · simp only [Outcome.ok.injEq] at hcalc
              rw [← hcalc]
          refine ⟨fun h => h.append rfl rfl ?_, ?_⟩
          · exact ⟨baseline, List.mem_of_find?_eq_some hbase, hout.symm⟩
          · rintro o ⟨x, hx, hxo⟩
            exact ⟨x, List.mem_append_left _ hx, hxo⟩

theorem resolveDispute_keeps (env : CallEnv) (r : ℕ) (email : String) (req : ResolveDisputeRequest)
    (t : SlaTables) : LatestInv t → Keeps t (resolveDispute env r email req t).2 := by
  intro hinv
  unfold resolveDispute
  split
  · exact Keeps.refl t
  · split
    · exact Keeps.refl t
    · split
      · exact Keeps.refl t
      · rename_i rows hrows
        unfold applyResolution at hrows
        split at hrows
        · split at hrows
          · cases hrows
          · split at hrows
            · cases hrows
            · rename_i proposed hfind
              obtain ⟨hid, ho, hcount⟩ :=
                flushApply_eq_ok hinv (List.mem_of_find?_eq_some hfind) hrows
              exact ⟨fun h => h.of_same hid ho hcount, fun o h => h.of_map_eq ho⟩
        · simp only [Outcome.ok.injEq] at hrows
          subst hrows
          exact ⟨fun h => h.of_same rfl rfl (fun _ => rfl), fun _ => id⟩

@[simp] theorem Outcome.wrap_snd {α : Type} (f : α → Reply) (x : Outcome α × SlaTables) :
    (Outcome.wrap f x).2 = x.2 := by
  obtain ⟨out, t⟩ := x
  cases out <;> rfl

@[simp] theorem Outcome.wrap_isOk {α : Type} (f : α → Reply) (x : Outcome α × SlaTables) :
    (Outcome.wrap f x).1.isOk = x.1.isOk := by
  obtain ⟨out, t⟩ := x
  cases out <;> rfl

/-- One call keeps the invariant and the rows of every outage. -/
theorem exec_keeps (env : CallEnv) {t : SlaTables} (h : LatestInv t) (c : Call) :
    Keeps t (exec env t c).2 := by
  cases c with
  | create data => simpa [exec] using create_keeps env data t
  | createIfChanged data => simpa [exec] using createIfChanged_keeps env data t
  | flagDispute r email reason => simpa [exec] using flagDispute_keeps env r email reason t
  | createProposedSla r req => simpa [exec] using createProposedSla_keeps env r req t
  | resolveDispute r email req => simpa [exec] using resolveDispute_keeps env r email req t h

/-- Any sequence of calls keeps the invariant and the rows of every outage. -/
theorem execAll_keeps (cs : List (CallEnv × Call)) {t : SlaTables} (h : LatestInv t) :
    Keeps t (execAll t cs) := by
  induction cs generalizing t with
  | nil => exact Keeps.refl t
  | cons c cs ih =>
      obtain ⟨env, c⟩ := c
      have hc := exec_keeps env h c
      have hrest := ih (hc.inv h)
      exact ⟨fun h => hrest.inv (hc.inv h), fun o ho => hrest.hasRow o (hc.hasRow o ho)⟩

/-! ## What `create` returns -/

/-- The row stored under the compute hash of the payload, when it is no longer the latest one. -/
def superseded (t : SlaTables) (p : SLAPayload) : Option SLAResultRow :=
  (existingByHash t p).filter fun r => !r.isLatest

/-- A row found by its compute hash is a row of the payload's outage. -/
theorem existingByHash_spec {t : SlaTables} {p : SLAPayload} {r : SLAResultRow}
    (h : existingByHash t p = some r) : r ∈ t.results ∧ r.outageId = p.outageId := by
  unfold existingByHash at h
  obtain ⟨hash, -, hfind⟩ := Option.bind_eq_some_iff.mp h
  have hp := List.find?_some hfind
  simp only [hashedAs, Bool.and_eq_true, decide_eq_true_eq] at hp
  exact ⟨List.mem_of_find?_eq_some hfind, hp.1⟩

/-- The latest row of an outage is what `get_by_outage` returns. -/
theorem getByOutage_of_latest {t : SlaTables} (h : LatestInv t) {r : SLAResultRow}
    (hr : r ∈ t.results) (hflag : r.isLatest = true) :
    getByOutage t r.outageId = some r.toResult := by
  have hfind := find?_eq_of_countP_eq_one (h.one_latest r hr) hr (by simp [latestOf, hflag])
  unfold getByOutage
  rw [hfind]

/-- A row that is not the latest of its outage is not what `get_by_outage` returns. -/
theorem getByOutage_ne_of_not_latest {t : SlaTables} (h : LatestInv t) {r : SLAResultRow}
    (hr : r ∈ t.results) (hflag : r.isLatest = false) :
    getByOutage t r.outageId ≠ some r.toResult := by
  intro heq
  unfold getByOutage at heq
  split at heq
  · rename_i x hfind
    rw [Option.some.injEq] at heq
    have hx := List.mem_of_find?_eq_some hfind
    have hxp := List.find?_some hfind
    simp only [latestOf, Bool.and_eq_true, decide_eq_true_eq] at hxp
    have hid : x.id = r.id := by simpa [SLAResultRow.toResult] using congrArg SLAResult.id heq
    have hxr : x = r := List.inj_on_of_nodup_map h.ids_nodup hx hr hid
    rw [hxr, hflag] at hxp
    exact absurd hxp.2 (by simp)
  · rename_i hnone
    rw [List.find?_eq_none] at hnone
    have hzero := List.countP_eq_zero.mpr hnone
    rw [h.one_latest r hr] at hzero
    omega

/-- The row `create` adds is the one `get_by_outage` finds afterwards. -/
theorem getByOutage_insertLatest {env : CallEnv} {p : SLAPayload} {t t' : SlaTables} {r : SLAResult}
    (h : LatestInv t) (hres : insertLatest env p t = (.ok r, t')) :
    getByOutage t' p.outageId = some r := by
  have hinv : LatestInv t' := by
    have := (insertLatest_keeps env p t).inv h
    rwa [hres] at this
  obtain ⟨rfl, rfl⟩ := insertLatest_eq_ok hres
  exact getByOutage_of_latest hinv (r := newRow env t.nextResultId p)
    (List.mem_append_right _ (List.mem_singleton.mpr rfl)) rfl

/-- How the row a call returned relates to the current result of its outage. -/
structure ReturnedRow (t : SlaTables) (p : SLAPayload) (r : SLAResult) (t' : SlaTables) : Prop where
  /-- Without a superseded row under the payload's hash, the current result is returned. -/
  current : superseded t p = none → getByOutage t' p.outageId = some r
  /-- A superseded row under the payload's hash is returned as it is, and nothing is written. -/
  stale : ∀ e, superseded t p = some e →
    r = e.toResult ∧ t' = t ∧ getByOutage t' p.outageId ≠ some r

/-- The shared fast path: a row under the payload's hash is returned, whatever its flag. -/
theorem returnedRow_of_existing {t : SlaTables} (h : LatestInv t) {p : SLAPayload}
    {x : SLAResultRow} (hx : existingByHash t p = some x) : ReturnedRow t p x.toResult t := by
  obtain ⟨hmem, ho⟩ := existingByHash_spec hx
  constructor
  · intro hnone
    rw [superseded, hx, Option.filter_eq_none_iff] at hnone
    have hflag : x.isLatest = true := by simpa using hnone x rfl
    rw [← ho]
    exact getByOutage_of_latest h hmem hflag
  · intro e he
    rw [superseded, hx, Option.filter_eq_some_iff] at he
    obtain ⟨hxe, hflag⟩ := he
    rw [Option.some.injEq] at hxe
    subst hxe
    refine ⟨rfl, rfl, ?_⟩
    rw [← ho]
    exact getByOutage_ne_of_not_latest h hmem (by simpa using hflag)

/-- Without a row under the payload's hash nothing is superseded. -/
theorem returnedRow_of_current {t t' : SlaTables} {p : SLAPayload} {r : SLAResult}
    (hx : existingByHash t p = none) (hget : getByOutage t' p.outageId = some r) :
    ReturnedRow t p r t' := by
  have hsup : superseded t p = none := by rw [superseded, hx]; rfl
  exact ⟨fun _ => hget, fun e he => by rw [hsup] at he; cases he⟩

theorem create_returnedRow {env : CallEnv} {data : SLAData} {t t' : SlaTables} {r : SLAResult}
    (h : LatestInv t) (hres : create env data t = (.ok r, t')) :
    ReturnedRow t data.payload r t' := by
  unfold create at hres
  simp only at hres
  split at hres
  · rename_i x hx
    simp only [Prod.mk.injEq, Outcome.ok.injEq] at hres
    obtain ⟨rfl, rfl⟩ := hres
    exact returnedRow_of_existing h hx
  · rename_i hx
    exact returnedRow_of_current hx (getByOutage_insertLatest h hres)

theorem createIfChanged_returnedRow {env : CallEnv} {data : SLAData} {t t' : SlaTables}
    {r : SLAResult} (h : LatestInv t) (hres : createIfChanged env data t = (.ok r, t')) :
    ReturnedRow t data.payload r t' := by
  unfold createIfChanged at hres
  simp only at hres
  split at hres
  · rename_i x hx
    simp only [Prod.mk.injEq, Outcome.ok.injEq] at hres
    obtain ⟨rfl, rfl⟩ := hres
    exact returnedRow_of_existing h hx
  · rename_i hx
    split at hres
    · rename_i latest hlatest
      split at hres
      · simp only [Prod.mk.injEq, Outcome.ok.injEq] at hres
        obtain ⟨rfl, rfl⟩ := hres
        exact returnedRow_of_current hx hlatest
      · exact create_returnedRow h hres
    · exact create_returnedRow h hres

/-! ## Over whole histories of calls -/

/-- After a `create` that went through, the outage has a row. -/
theorem hasRow_of_created {t t' : SlaTables} {p : SLAPayload} {r : SLAResult}
    (h : ReturnedRow t p r t') (ht : superseded t p = none) : HasRow t'.results p.outageId := by
  have hget := h.current ht
  unfold getByOutage at hget
  split at hget
  · rename_i x hfind
    have hxp := List.find?_some hfind
    simp only [latestOf, Bool.and_eq_true, decide_eq_true_eq] at hxp
    exact ⟨x, List.mem_of_find?_eq_some hfind, hxp.1⟩
  · obtain ⟨x, hx, -⟩ := Option.map_eq_some_iff.mp hget
    have hmem := List.mem_of_mem_head? hx
    rw [List.mem_insertionSort, List.mem_filter] at hmem
    exact ⟨x, hmem.1, by simpa using hmem.2⟩

/-- The outage of a call that succeeded has a row afterwards. -/
theorem hasRow_of_exec {env : CallEnv} {t : SlaTables} (h : LatestInv t) {c : Call} {o : String}
    (hok : (exec env t c).1.isOk = true) (ho : c.outage? = some o) :
    HasRow (exec env t c).2.results o := by
  have hdata : ∀ (data : SLAData) (x : Outcome SLAResult × SlaTables), x.1.isOk = true →
      (∀ r t', x = (.ok r, t') → ReturnedRow t data.payload r t') →
      HasRow x.2.results data.payload.outageId := by
    intro data x hx hret
    obtain ⟨out, t'⟩ := x
    cases out with
    | error e => simp [Outcome.isOk] at hx
    | ok r =>
        have hrow := hret r t' rfl
        cases hsup : superseded t data.payload with
        | none => exact hasRow_of_created hrow hsup
        | some e =>
            obtain ⟨-, rfl, -⟩ := hrow.stale e hsup
            rw [superseded, Option.filter_eq_some_iff] at hsup
            obtain ⟨hmem, heo⟩ := existingByHash_spec hsup.1
            exact ⟨e, hmem, heo⟩
  cases c with
  | create data =>
      simp only [Call.outage?, Option.some.injEq] at ho
      subst ho
      simp only [exec, Outcome.wrap_isOk, Outcome.wrap_snd] at hok ⊢
      exact hdata data _ hok fun r t' hres => create_returnedRow h hres
  | createIfChanged data =>
      simp only [Call.outage?, Option.some.injEq] at ho
      subst ho
      simp only [exec, Outcome.wrap_isOk, Outcome.wrap_snd] at hok ⊢
      exact hdata data _ hok fun r t' hres => createIfChanged_returnedRow h hres
  | flagDispute _ _ _ => simp [Call.outage?] at ho
  | createProposedSla _ _ => simp [Call.outage?] at ho
  | resolveDispute _ _ _ => simp [Call.outage?] at ho

/-- Every outage that a history of calls has given a result to has a row at its end. -/
theorem hasRow_of_given (cs : List (CallEnv × Call)) {t : SlaTables} (h : LatestInv t) {o : String}
    (ho : o ∈ given t cs) : HasRow (execAll t cs).results o := by
  induction cs generalizing t with
  | nil => simp [given] at ho
  | cons c cs ih =>
      obtain ⟨env, c⟩ := c
      have hinv := (exec_keeps env h c).inv h
      simp only [given, List.mem_append] at ho
      simp only [execAll]
      rcases ho with ho | ho
      · split at ho
        · rename_i hok
          rw [Option.mem_toList] at ho
          exact (execAll_keeps cs hinv).hasRow o (hasRow_of_exec h hok ho)
        · simp at ho
      · exact ih hinv ho

/-- In every history of calls from the empty tables, each outage that was given a result has exactly
one latest row; and a further `create` or `create_if_changed` returns the row `get_by_outage` then
returns, except that a row superseded since it was stored under the same compute hash is returned as
it is, with nothing written. -/
theorem one_latest_and_returned (cs : List (CallEnv × Call)) :
    (∀ o ∈ given SlaTables.empty cs,
      (execAll SlaTables.empty cs).results.countP (latestOf o) = 1) ∧
    ∀ (env : CallEnv) (data : SLAData) (r : SLAResult) (t' : SlaTables),
      create env data (execAll SlaTables.empty cs) = (.ok r, t') ∨
        createIfChanged env data (execAll SlaTables.empty cs) = (.ok r, t') →
      ReturnedRow (execAll SlaTables.empty cs) data.payload r t' := by
  have hinv : LatestInv (execAll SlaTables.empty cs) :=
    (execAll_keeps cs latestInv_empty).inv latestInv_empty
  constructor
  · intro o ho
    obtain ⟨x, hx, hxo⟩ := hasRow_of_given cs latestInv_empty ho
    rw [← hxo]
    exact hinv.one_latest x hx
  · rintro env data r t' (hres | hres)
    · exact create_returnedRow hinv hres
    · exact createIfChanged_returnedRow hinv hres

/-- A process with the built-in policy and every outage on record. -/
def sampleEnv : CallEnv := ⟨initialPolicy, fun _ => true, 0, 0⟩

/-- A met result of outage `OUT001` under the given compute hash. -/
def sampleData (hash : String) : SLAData :=
  .model ⟨none, "OUT001", .met, 5, 30, 1500, .reward, .exceptional, "1.0", "config", none, none,
    some hash⟩

/-- The theorem at a history of one `create`, followed by a second one under another hash. -/
theorem one_latest_and_returned_sample :
    (execAll SlaTables.empty [(sampleEnv, .create (sampleData "a"))]).results.countP
        (latestOf "OUT001") = 1 ∧
      ReturnedRow (execAll SlaTables.empty [(sampleEnv, .create (sampleData "a"))])
        (sampleData "b").payload (newRow sampleEnv 2 (sampleData "b").payload).toResult
        (execAll SlaTables.empty
          [(sampleEnv, .create (sampleData "a")), (sampleEnv, .create (sampleData "b"))]) :=
  ⟨(one_latest_and_returned [(sampleEnv, .create (sampleData "a"))]).1 "OUT001" (by decide),
    (one_latest_and_returned [(sampleEnv, .create (sampleData "a"))]).2 sampleEnv (sampleData "b")
      _ _ (.inl rfl)⟩

/-- `create` under the hash of the first of two results returns that first row, while
`get_by_outage` returns the second. -/
theorem create_returns_superseded_row :
    ¬ ∀ (cs : List (CallEnv × Call)) (env : CallEnv) (data : SLAData) (r : SLAResult)
        (t' : SlaTables), create env data (execAll SlaTables.empty cs) = (.ok r, t') →
        getByOutage t' data.payload.outageId = some r := by
  intro h
  have hfirst := h [(sampleEnv, .create (sampleData "a")), (sampleEnv, .create (sampleData "b"))]
    sampleEnv (sampleData "a") (newRow sampleEnv 1 (sampleData "a").payload).toResult _ rfl
  exact absurd hfirst (by decide)

end ApexChainx.Sla
