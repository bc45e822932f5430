import ApexChainx.Import.Stream

/-!
# An array of any values in the upload

The dry run of `import_outages` (`app/api/v1/endpoints/outages.py`), on an array whose elements need not be
objects, beside the stream. Both hand every row to `OutageCreate`, but their `_row_error` differ: that of the
upload takes the row for an object, that of the stream looks first. Neither looks at the type of the `id`. The dry
run alone looks valid rows up, where a NUL fails.
-/

namespace ApexChainx.Import

open ApexChainx.Lib

variable (codec : Codec) (maxDetectedAt : DateTime)

/-- The elements of the array as the rows of a file: only an object can be unpacked, and only an object has
`get`. -/
def elementParser : RowParser Value where
  outageCreate
    | .obj row => outageCreate codec maxDetectedAt row
    | v =>
        .error (.typeError ("app.models.outage_dto.OutageCreate() argument after ** must be a mapping, not "
          ++ typeName v))
  rowId
    | .obj row => rowId row
    | v => .error (.attributeError (typeName v) "get")
  rowId_of_valid v p h := by
    cases v with
    | obj row => exact (rowParser codec maxDetectedAt).rowId_of_valid row p h
    | _ => cases h

/-- `ImportResponse`. -/
structure ImportResponse where
  mode : String
  consistency : ImportConsistency
  totalRows : ℕ
  persisted : ℕ
  validated : ℕ
  errorCount : ℕ
  errors : List ImportRowResult
  rows : List ImportRowResult
deriving DecidableEq, Repr

/-- `_import_response`. -/
def importResponse (mode : String) (consistency : ImportConsistency) (total persisted : ℕ)
    (outcomes : List ImportRowResult) : ImportResponse where
  mode := mode
  consistency := consistency
  totalRows := total
  persisted := persisted
  validated := outcomes.countP (·.ok)
  errorCount := (outcomes.filter (!·.ok)).length
  errors := outcomes.filter (!·.ok)
  rows := outcomes

/-- `import_outages` with `dry_run`, on a file that begins like JSON and is not too long. -/
def importDryRun (maxBulkOutagesCount : ℕ) (consistency : ImportConsistency) (file : Decoded)
    (outages : List OutageRow) : Outcome ImportResponse :=
  match file with
  | .notJson detail => .error (.http 400 ("Invalid JSON: " ++ detail))
  | .notUnicode detail => .error (.valueError detail)
  | .raised e => .error e
  | .value (.arr rows) =>
      if maxBulkOutagesCount < rows.length then
        .error (.http 400 ("Too many rows in file. Maximum allowed is " ++ toString maxBulkOutagesCount ++ "."))
      else
        match importOutages (elementParser codec maxDetectedAt) noFaults [] true consistency rows outages with
        | (.error e, _) => .error e
        | (.ok outcomes, _) => .ok (importResponse "dry_run" consistency rows.length 0 outcomes)
  | .value _ => .error (.http 400 "JSON file must contain a list of outage objects")

/-- The dry run of the upload answers `response` and the loops of the stream end with `acc`: every row has one
outcome, and they agree on the valid rows. -/
structure Agreement (maxBulkOutagesCount maxRows chunkSize : ℕ) (consistency : ImportConsistency)
    (rows : List Value) (response : ImportResponse) (acc : Validated) : Prop where
  upload : importDryRun codec maxDetectedAt maxBulkOutagesCount consistency (.value (.arr rows)) [] = .ok response
  stream : streamImportOutages codec maxDetectedAt maxRows chunkSize .partial_ (.value (.arr rows)) =
    .ok (streamResult .partial_ maxRows rows acc)
  loops : validate codec maxDetectedAt maxRows chunkSize rows = .ok acc
  outcomes : response.rows.map ImportRowResult.row = List.range rows.length
  counts : response.validated + response.errorCount = response.totalRows ∧ response.totalRows = rows.length
  agree : ∀ index < rows.length,
    (∃ result ∈ response.rows, result.row = index ∧ result.ok = true) ↔
      index ∉ acc.failed.map ImportRowResult.row

/-- The file is read as an array; both return normally, and report every row. -/
def ReportsEveryRow (maxBulkOutagesCount maxRows chunkSize : ℕ) (consistency : ImportConsistency)
    (file : Decoded) : Prop :=
  ∃ rows response acc, file = .value (.arr rows) ∧
    Agreement codec maxDetectedAt maxBulkOutagesCount maxRows chunkSize consistency rows response acc

/-- The row is an object that can be named in a result, and looked up if it is valid. -/
def Reportable (row : Value) : Prop :=
  ∃ members, row = .obj members ∧ Nameable codec members ∧
    ∀ p, outageCreate codec maxDetectedAt members = .ok p → Sendable p.texts

variable {codec maxDetectedAt} {i : ℕ} {rows : List Value} {results : List ImportRowResult}

theorem elementParser_raises_iff {row : Value} : Raises (elementParser codec maxDetectedAt) row ↔
    ¬ ∃ members, row = .obj members ∧ Nameable codec members := by
  cases row with
  | obj members =>
      have hrow : Raises (rowParser codec maxDetectedAt) members ↔ ¬ Nameable codec members := rowParser_raises_iff
      exact hrow.trans (by simp)
  | _ => simp [Raises, elementParser]

theorem importDryRun_eq {maxBulkOutagesCount : ℕ} (hcap : rows.length ≤ maxBulkOutagesCount)
    (consistency : ImportConsistency) (outages : List OutageRow) :
    importDryRun codec maxDetectedAt maxBulkOutagesCount consistency (.value (.arr rows)) outages =
      afterReport (importResponse "dry_run" consistency rows.length 0)
        (dryRun (elementParser codec maxDetectedAt) outages 0 rows) := by
  have hrun : importOutages (elementParser codec maxDetectedAt) noFaults [] true consistency rows outages =
      (dryRun (elementParser codec maxDetectedAt) outages 0 rows, outages) := rfl
  dsimp only [importDryRun]
  rw [if_neg (Nat.not_lt.mpr hcap), hrun]
  cases dryRun (elementParser codec maxDetectedAt) outages 0 rows with
  | error e => rfl
  | ok results => rfl

theorem counts_importResponse (mode : String) (consistency : ImportConsistency) (total persisted : ℕ)
    (outcomes : List ImportRowResult) :
    (importResponse mode consistency total persisted outcomes).validated +
      (importResponse mode consistency total persisted outcomes).errorCount = outcomes.length := by
  have hsplit := length_split outcomes
  unfold split at hsplit
  rw [List.length_map, ← List.countP_eq_length_filter] at hsplit
  exact hsplit

/-! ## Both results of a row -/

/-- Rows that are objects and can be looked up have the same results in both. -/
theorem dryRow_elementParser {row : Value} (h : Reportable codec maxDetectedAt row) :
    dryRow (elementParser codec maxDetectedAt) [] i row = streamRow codec maxDetectedAt i row := by
  obtain ⟨members, rfl, -, hsendable⟩ := h
  unfold dryRow streamRow
  dsimp only [elementParser, streamParser]
  cases hcreate : outageCreate codec maxDetectedAt members with
  | error e => rfl
  | ok p =>
      have hnew : checkDuplicate [] p = .ok none :=
        checkDuplicate_eq_none.mpr ⟨List.not_mem_nil, by simp, hsendable p hcreate⟩
      dsimp only
      rw [hnew]

theorem dryRun_elementParser (h : ∀ row ∈ rows, Reportable codec maxDetectedAt row) :
    dryRun (elementParser codec maxDetectedAt) [] i rows = report (streamRow codec maxDetectedAt) i rows := by
  induction rows generalizing i with
  | nil => rfl
  | cons row rows ih =>
      obtain ⟨hrow, hrows⟩ := List.forall_mem_cons.mp h
      rw [dryRun, report, report, ← dryRun, dryRow_elementParser hrow, ih hrows]

/-- A valid row that cannot be looked up is refused by the dry run, and accepted by the stream. -/
theorem dryRow_of_not_sendable {members : Row} {p : OutageCreate}
    (hcreate : outageCreate codec maxDetectedAt members = .ok p) (hnul : ¬ Sendable p.texts) :
    ∃ refused accepted, dryRow (elementParser codec maxDetectedAt) [] i (.obj members) = .ok refused ∧
      streamRow codec maxDetectedAt i (.obj members) = .ok accepted ∧
      refused.row = i ∧ refused.ok = false ∧ accepted.row = i ∧ accepted.ok = true := by
  obtain ⟨text, herror⟩ : ∃ text, checkDuplicate [] p = .error (.valueError text) :=
    checkDuplicate_of_not_sendable hnul (by simp)
  have hvalid : (elementParser codec maxDetectedAt).outageCreate (.obj members) = .ok p := hcreate
  have hvalid' : (streamParser codec maxDetectedAt).outageCreate (.obj members) = .ok p := hcreate
  refine ⟨⟨i, some p.id, false, some (.valueError text), none, none, none, none⟩, _, ?_,
    by rw [streamRow, hvalid'], rfl, rfl, rfl, rfl⟩
  rw [dryRow, hvalid]
  dsimp only
  rw [herror]
  exact rowFailed_of_valid _ hvalid i text

/-- The results of a loop are at the positions of their rows. -/
theorem rows_eq_of_report {rowResult : ℕ → Value → Outcome ImportRowResult}
    (hrow : ∀ {i row result}, rowResult i row = .ok result → result.row = i)
    (h : report rowResult i rows = .ok results) :
    results.map ImportRowResult.row = List.range' i rows.length := by
  rw [report_eq_ok_iff] at h
  induction rows generalizing i results with
  | nil =>
      cases h
      rfl
  | cons row rows ih =>
      rw [List.zipIdx_cons, List.forall₂_cons_left_iff] at h
      obtain ⟨result, rest, hresult, hrest, rfl⟩ := h
      rw [List.map_cons, hrow hresult, ih hrest, List.length_cons, List.range'_succ]

theorem row_streamRow {row : Value} {result : ImportRowResult} (h : streamRow codec maxDetectedAt i row = .ok result) :
    result.row = i :=
  (streamRow_cases h).1

theorem row_dryRow {row : Value} {result : ImportRowResult}
    (h : dryRow (elementParser codec maxDetectedAt) [] i row = .ok result) : result.row = i := by
  have hfailed : ∀ {e}, rowFailed (elementParser codec maxDetectedAt) i row e = .ok result → result.row = i := by
    intro e he
    unfold rowFailed rowError at he
    split at he
    · split at he
      · cases he
      · rw [← Outcome.ok.inj he]
    · cases he
  unfold dryRow at h
  split at h
  · exact hfailed h
  · split at h
    · exact hfailed h
    all_goals rw [← Outcome.ok.inj h]

/-- The result of a row is among those of its loop. -/
theorem mem_of_report {rowResult : ℕ → Value → Outcome ImportRowResult} {row : Value} {index : ℕ}
    {result : ImportRowResult} (h : report rowResult i rows = .ok results) (hrow : (row, index) ∈ rows.zipIdx i)
    (hresult : rowResult index row = .ok result) : result ∈ results := by
  rw [report_eq_ok_iff] at h
  induction rows generalizing i results with
  | nil => cases hrow
  | cons first rows ih =>
      rw [List.zipIdx_cons] at hrow h
      obtain ⟨result', rest, hfirst, hrest, rfl⟩ := List.forall₂_cons_left_iff.mp h
      rcases List.mem_cons.mp hrow with heq | hlater
      · cases heq
        rw [Outcome.ok.inj (hresult.symm.trans hfirst)]
        exact List.mem_cons_self
      · exact List.mem_cons_of_mem _ (ih hrest hlater)

/-- With one result for every index, an index is that of an accepted row or of a refused one. -/
theorem accepted_iff {results : List ImportRowResult} (h : (results.map ImportRowResult.row).Nodup) {index : ℕ}
    (hindex : index ∈ results.map ImportRowResult.row) :
    (∃ result ∈ results, result.row = index ∧ result.ok = true) ↔
      index ∉ (split results).failed.map ImportRowResult.row := by
  obtain ⟨result, hresult, rfl⟩ := List.mem_map.mp hindex
  have hunique : ∀ other ∈ results, other.row = result.row → other = result := by
    intro other hother hrow
    exact List.inj_on_of_nodup_map h hother hresult hrow
  constructor
  · rintro ⟨other, hother, hrow, hok⟩ hfailed
    obtain ⟨refused, hrefused, hindex⟩ := List.mem_map.mp hfailed
    obtain ⟨hmem, hnot⟩ := List.mem_filter.mp hrefused
    rw [hunique refused hmem hindex, ← hunique other hother hrow, hok] at hnot
    cases hnot
  · intro hfailed
    refine ⟨result, hresult, rfl, ?_⟩
    by_contra hnot
    exact hfailed (List.mem_map_of_mem (List.mem_filter.mpr ⟨hresult, by simpa using hnot⟩))

/-- A valid row that cannot be looked up parts the two. -/
theorem not_agree {maxRows chunkSize : ℕ} {acc : Validated} {members : Row} {p : OutageCreate}
    (hrun : dryRun (elementParser codec maxDetectedAt) [] 0 rows = .ok results)
    (hloops : validate codec maxDetectedAt maxRows chunkSize rows = .ok acc) (hmax : rows.length ≤ maxRows)
    (hchunk : 1 ≤ chunkSize)
    (hagree : ∀ index < rows.length, (∃ result ∈ results, result.row = index ∧ result.ok = true) ↔
      index ∉ acc.failed.map ImportRowResult.row)
    (hrow : .obj members ∈ rows) (hcreate : outageCreate codec maxDetectedAt members = .ok p)
    (hnul : ¬ Sendable p.texts) : False := by
  rw [validate_eq maxRows hchunk, List.take_of_length_le hmax] at hloops
  cases hstream : report (streamRow codec maxDetectedAt) 0 rows with
  | error e =>
      rw [hstream] at hloops
      cases hloops
  | ok streamed =>
      rw [hstream] at hloops
      obtain rfl := Outcome.ok.inj hloops
      have hnodup : (results.map ImportRowResult.row).Nodup := by
        rw [rows_eq_of_report row_dryRow hrun]
        exact List.nodup_range'
      have hnodup' : (streamed.map ImportRowResult.row).Nodup := by
        rw [rows_eq_of_report row_streamRow hstream]
        exact List.nodup_range'
      obtain ⟨index, hindex, hget⟩ := List.getElem_of_mem hrow
      have hmem : (.obj members, index) ∈ rows.zipIdx 0 := by
        rw [List.mem_zipIdx_iff_getElem?, ← hget]
        exact List.getElem?_eq_getElem hindex
      obtain ⟨refused, accepted, hrefused, haccepted, hat, hnot, hat', hok⟩ :=
        dryRow_of_not_sendable (i := index) hcreate hnul
      have hmem₁ : refused ∈ results := mem_of_report hrun hmem hrefused
      have hmem₂ : accepted ∈ streamed := mem_of_report hstream hmem haccepted
      have hfailed : index ∈ (split results).failed.map ImportRowResult.row :=
        List.mem_map.mpr ⟨refused, List.mem_filter.mpr ⟨hmem₁, by simp [hnot]⟩, hat⟩
      have haccept := (accepted_iff hnodup' (List.mem_map.mpr ⟨accepted, hmem₂, hat'⟩)).mp ⟨accepted, hmem₂, hat', hok⟩
      exact (accepted_iff hnodup (List.mem_map.mpr ⟨refused, hmem₁, hat⟩)).mp ((hagree index hindex).mpr haccept)
        hfailed

end ApexChainx.Import
