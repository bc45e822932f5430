import ApexChainx.Sla.Latest

/-!
# What the calls do to the rows of `sla_results`

Rows are never deleted, and `is_latest` is the only column that is ever updated. So a fact about the
other columns of the stored rows needs checking on the rows that are added and nowhere else: `unflag`
forgets the flag, and each call keeps the unflagged rows or appends one.
-/

namespace ApexChainx.Sla

open ApexChainx.Lib

/-- The row without its flag. -/
def SLAResultRow.unflag (r : SLAResultRow) : SLAResultRow := { r with isLatest := false }

theorem map_unflag_updateKey (id : ℕ) (b : Bool) (results : List SLAResultRow) :
    (updateKey SLAResultRow.id id (fun r => { r with isLatest := b }) results).map SLAResultRow.unflag
      = results.map SLAResultRow.unflag := by
  unfold updateKey
  rw [List.map_map]
  refine List.map_congr_left fun r _ => ?_
  simp only [Function.comp_apply]
  split <;> rfl

theorem map_unflag_demoteLatest (o : String) (results : List SLAResultRow) :
    (demoteLatest o results).map SLAResultRow.unflag = results.map SLAResultRow.unflag := by
  unfold demoteLatest
  rw [List.map_map]
  refine List.map_congr_left fun r _ => ?_
  simp only [Function.comp_apply]
  split <;> rfl

/-- A row of a table has a counterpart in every table with the same unflagged rows. -/
theorem exists_counterpart {rows rows' : List SLAResultRow}
    (h : rows'.map SLAResultRow.unflag = rows.map SLAResultRow.unflag) {r : SLAResultRow}
    (hr : r ∈ rows') :
    ∃ x ∈ rows, x.id = r.id ∧ x.computeHash = r.computeHash ∧ x.toResult = r.toResult := by
  have hmem : r.unflag ∈ rows.map SLAResultRow.unflag := by
    rw [← h]
    exact List.mem_map_of_mem hr
  obtain ⟨x, hx, hxr⟩ := List.mem_map.mp hmem
  have hres : x.unflag.toResult = r.unflag.toResult := congrArg SLAResultRow.toResult hxr
  exact ⟨x, hx, Option.some.inj (congrArg SLAResult.id hres), congrArg SLAResult.computeHash hres,
    hres⟩

theorem setLatest_unflag {results rows : List SLAResultRow} {id : ℕ} {o : String} {b : Bool}
    (h : setLatest results id o b = .ok rows) :
    rows.map SLAResultRow.unflag = results.map SLAResultRow.unflag := by
  rw [(setLatest_eq_ok h).1]
  exact map_unflag_updateKey id b results

/-- Applying a proposal moves the flag only. -/
theorem flushApply_unflag {results rows : List SLAResultRow} {proposed : SLAResultRow}
    (h : flushApply results proposed = .ok rows) :
    rows.map SLAResultRow.unflag = results.map SLAResultRow.unflag := by
  unfold flushApply at h
  split at h
  · exact setLatest_unflag h
  · split at h
    · rw [Outcome.ok.injEq] at h
      rw [h]
    · split at h
      · split at h
        · cases h
        · rename_i rows₁ h₁
          rw [setLatest_unflag h, setLatest_unflag h₁]
      · split at h
        · cases h
        · rename_i rows₁ h₁
          rw [setLatest_unflag h, setLatest_unflag h₁]

theorem flagDispute_results (env : CallEnv) (r : ℕ) (email reason : String) (t : SlaTables) :
    (flagDispute env r email reason t).2.results = t.results ∧
      (flagDispute env r email reason t).2.nextResultId = t.nextResultId := by
  unfold flagDispute
  split
  · exact ⟨rfl, rfl⟩
  · split
    · exact ⟨rfl, rfl⟩
    · exact ⟨rfl, rfl⟩

/-- A proposal that is stored is appended: not the latest row, and without a compute hash. -/
theorem createProposedSla_results (env : CallEnv) (r : ℕ) (req : ProposedRequest)
    (t : SlaTables) :
    (createProposedSla env r req t).2.results = t.results ∧
        (createProposedSla env r req t).2.nextResultId = t.nextResultId ∨
      ∃ x, (createProposedSla env r req t).2.results = t.results ++ [x] ∧ x.isLatest = false ∧
        x.computeHash = none ∧ x.id = t.nextResultId ∧
        (createProposedSla env r req t).2.nextResultId = t.nextResultId + 1 := by
  unfold createProposedSla
  split
  · exact .inl ⟨rfl, rfl⟩
  · split
    · exact .inl ⟨rfl, rfl⟩
    · split
      · exact .inl ⟨rfl, rfl⟩
      · rename_i new _
        split
        · exact .inl ⟨rfl, rfl⟩
        · rename_i t' hins
          obtain ⟨rfl, -⟩ := insertResult_eq_ok hins
          exact .inr ⟨proposedRow env t.nextResultId new, rfl, rfl, rfl, rfl, rfl⟩

/-- A resolution moves flags only. -/
theorem resolveDispute_unflag (env : CallEnv) (r : ℕ) (email : String)
    (req : ResolveDisputeRequest) (t : SlaTables) :
    (resolveDispute env r email req t).2.results.map SLAResultRow.unflag
        = t.results.map SLAResultRow.unflag ∧
      (resolveDispute env r email req t).2.nextResultId = t.nextResultId := by
  unfold resolveDispute
  split
  · exact ⟨rfl, rfl⟩
  · split
    · exact ⟨rfl, rfl⟩
    · split
      · exact ⟨rfl, rfl⟩
      · rename_i rows happ
        refine ⟨?_, rfl⟩
        unfold applyResolution at happ
        split at happ
        · split at happ
          · cases happ
          · split at happ
            · cases happ
            · exact flushApply_unflag happ
        · rw [Outcome.ok.injEq] at happ
          rw [happ]

/-- A proposal older than the latest result of its outage is not applied. -/
theorem flushApply_older {t : SlaTables} (h : LatestInv t) {proposed latest : SLAResultRow}
    (hmem : proposed ∈ t.results) (hl : latest ∈ t.results)
    (hlatest : latestOf proposed.outageId latest = true) (hlt : proposed.id < latest.id)
    {rows : List SLAResultRow} : flushApply t.results proposed ≠ .ok rows := by
  have hfind := find?_eq_of_countP_eq_one (h.one_latest proposed hmem) hl hlatest
  intro hok
  unfold flushApply at hok
  rw [hfind] at hok
  simp only at hok
  rw [if_neg (by omega), if_neg (by omega)] at hok
  split at hok
  · cases hok
  · rename_i rows₁ hfirst
    exact setLatest_refused h hmem hfind (by omega) hfirst

/-- A dispute request that fails leaves the tables as they were. -/
theorem flagDispute_error {env : CallEnv} {r : ℕ} {email reason : String} {t t' : SlaTables}
    {e : ApiError} (h : flagDispute env r email reason t = (.error e, t')) : t' = t := by
  unfold flagDispute at h
  split at h
  · exact (Prod.mk.inj h).2.symm
  · split at h
    · exact (Prod.mk.inj h).2.symm
    · cases (Prod.mk.inj h).1

theorem createProposedSla_error {env : CallEnv} {r : ℕ} {req : ProposedRequest} {t t' : SlaTables}
    {e : ApiError} (h : createProposedSla env r req t = (.error e, t')) : t' = t := by
  unfold createProposedSla at h
  split at h
  · exact (Prod.mk.inj h).2.symm
  · split at h
    · exact (Prod.mk.inj h).2.symm
    · split at h
      · exact (Prod.mk.inj h).2.symm
      · split at h
        · exact (Prod.mk.inj h).2.symm
        · cases (Prod.mk.inj h).1

theorem resolveDispute_error {env : CallEnv} {r : ℕ} {email : String} {req : ResolveDisputeRequest}
    {t t' : SlaTables} {e : ApiError} (h : resolveDispute env r email req t = (.error e, t')) :
    t' = t := by
  unfold resolveDispute at h
  split at h
  · exact (Prod.mk.inj h).2.symm
  · split at h
    · exact (Prod.mk.inj h).2.symm
    · split at h
      · exact (Prod.mk.inj h).2.symm
      · cases (Prod.mk.inj h).1

/-- Whatever `get_by_outage` returns was stored, so it has an id. -/
theorem getByOutage_id_ne_none {t : SlaTables} {o : String} {r : SLAResult}
    (h : getByOutage t o = some r) : r.id ≠ none := by
  unfold getByOutage at h
  split at h
  · rw [← Option.some.inj h]
    exact Option.some_ne_none _
  · obtain ⟨x, -, rfl⟩ := Option.map_eq_some_iff.mp h
    exact Option.some_ne_none _

theorem insertLatest_fits {env : CallEnv} {p : SLAPayload} {t t' : SlaTables} {r : SLAResult}
    (h : insertLatest env p t = (.ok r, t')) : (newRow env t.nextResultId p).fits = true := by
  unfold insertLatest at h
  simp only at h
  split at h
  · cases h
  · rename_i hins
    unfold insertResult at hins
    split at hins
    · cases hins
    · rename_i hfits
      simpa using hfits

/-- A result without an id is never taken for the stored one, which has one: `create_if_changed`
returns the row under the result's hash, fails, or inserts a new latest row. -/
theorem createIfChanged_cases {env : CallEnv} {r : SLAResult} {t t' : SlaTables}
    {out : Outcome SLAResult} (hid : r.id = none)
    (h : createIfChanged env (.model r) t = (out, t')) :
    (∃ x, existingByHash t r.modelDump = some x ∧ out = .ok x.toResult ∧ t' = t) ∨
    (existingByHash t r.modelDump = none ∧ (∃ e, out = .error e) ∧ t' = t) ∨
    (existingByHash t r.modelDump = none ∧
      out = .ok (newRow env t.nextResultId r.modelDump).toResult ∧
      (newRow env t.nextResultId r.modelDump).fits = true ∧
      t' = { t with
        results := demoteLatest r.outageId t.results ++ [newRow env t.nextResultId r.modelDump]
        nextResultId := t.nextResultId + 1 }) := by
  -- both ways past the comparison with the latest result end in `insertLatest`
  have hins : ∀ {out t'}, existingByHash t r.modelDump = none →
      insertLatest env r.modelDump t = (out, t') →
      (existingByHash t r.modelDump = none ∧ (∃ e, out = .error e) ∧ t' = t) ∨
      (existingByHash t r.modelDump = none ∧
        out = .ok (newRow env t.nextResultId r.modelDump).toResult ∧
        (newRow env t.nextResultId r.modelDump).fits = true ∧
        t' = { t with
          results := demoteLatest r.outageId t.results ++ [newRow env t.nextResultId r.modelDump]
          nextResultId := t.nextResultId + 1 }) := by
    intro out t' hnone hins
    cases out with
    | error e => exact .inl ⟨hnone, ⟨e, rfl⟩, insertLatest_eq_error hins⟩
    | ok stored =>
        obtain ⟨rfl, rfl⟩ := insertLatest_eq_ok hins
        exact .inr ⟨hnone, rfl, insertLatest_fits hins, rfl⟩
  have hpayload : (SLAData.model r).payload = r.modelDump := rfl
  unfold createIfChanged at h
  simp only at h
  rw [hpayload] at h
  split at h
  · rename_i x hx
    simp only [Prod.mk.injEq] at h
    exact .inl ⟨x, hx, h.1.symm, h.2.symm⟩
  · rename_i hnone
    have hcreate : create env (.mapping r.modelDump) t = insertLatest env r.modelDump t := by
      unfold create
      simp only [SLAData.payload, hnone]
    split at h
    · rename_i latest hlatest
      have hne : latest.modelDump ≠ r.modelDump := by
        intro heq
        have hids : latest.id = r.id := Option.some.inj (congrArg SLAPayload.id heq)
        rw [hid] at hids
        exact absurd hids (getByOutage_id_ne_none hlatest)
      split at h
      · rename_i heq
        exact absurd heq hne
      · exact .inr (hins hnone (hcreate.symm.trans h))
    · exact .inr (hins hnone (hcreate.symm.trans h))

end ApexChainx.Sla
