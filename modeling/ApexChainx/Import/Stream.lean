import ApexChainx.Import.DryRun
import ApexChainx.Import.Validate
import ApexChainx.Lib.Chunks

/-!
# Importing a streamed array

`stream_import_outages` (`app/services/outage_stream_import.py`), on what `json.loads` makes of a body. The rows up
to the cap are validated chunk by chunk; a refused row is reported at its position and under its `id`, unless it
cannot be (`Nameable`). The loops sort what one loop over the rows reports (`validate_eq`), so that the chunks do
not show in the result, and an atomic import accepts all of the rows it has read or none.
-/

namespace ApexChainx.Import

open ApexChainx.Lib

/-- What `json.loads` makes of the bytes of a body: a value, a `JSONDecodeError`, a `UnicodeDecodeError`, or another
exception, such as the `ValueError` of an integer with more than 4300 digits or a `RecursionError`. -/
inductive Decoded
  | value (v : Value)
  | notJson (detail : String)
  | notUnicode (detail : String)
  | raised (e : ApiError)

/-- `type(value).__name__`. -/
def typeName : Value → String
  | .null => "NoneType"
  | .bool _ => "bool"
  | .num (.int _) => "int"
  | .num (.float _) => "float"
  | .str _ | .halfStr _ => "str"
  | .arr _ => "list"
  | .obj _ => "dict"

variable (codec : Codec) (maxDetectedAt : DateTime)

/-! ## The stream -/

/-- The failed rows that are echoed back. -/
def maxReportedFailedRows : ℕ := 50

/-- `_row_error` of the stream. -/
def streamRowError (index : ℕ) (rawRow : Value) (e : ApiError) : Outcome ImportRowResult :=
  let id : Outcome (Option String) :=
    match rawRow with
    | .obj row => rowId row
    | _ => .ok none
  match id with
  | .error e' => .error e'
  | .ok id => .ok ⟨index, id, false, some e, none, none, none, none⟩

/-- `failed` and `valid_row_ids`. -/
structure Validated where
  failed : List ImportRowResult
  validRowIds : List String
deriving DecidableEq, Repr

def Validated.fail (acc : Validated) (result : ImportRowResult) : Validated :=
  { acc with failed := acc.failed ++ [result] }

def Validated.accept (acc : Validated) (id : String) : Validated :=
  { acc with validRowIds := acc.validRowIds ++ [id] }

/-- The body of the loop. -/
def validateRow (row : Value) (index : ℕ) (acc : Validated) : Outcome Validated :=
  let failed (e : ApiError) : Outcome Validated :=
    match streamRowError index row e with
    | .error e' => .error e'
    | .ok result => .ok (acc.fail result)
  match row with
  | .obj members =>
      match outageCreate codec maxDetectedAt members with
      | .ok p => .ok (acc.accept p.id)
      | .error e => if isRowError e then failed e else .error e
  | v => failed (.typeError ("expected a JSON object, got " ++ typeName v))

/-- The rows of a chunk. -/
def validateRows : List (Value × ℕ) → Validated → Outcome Validated
  | [], acc => .ok acc
  | (row, index) :: rows, acc =>
      match validateRow codec maxDetectedAt row index acc with
      | .error e => .error e
      | .ok acc' => validateRows rows acc'

/-- The chunks. -/
def validateChunks (chunkSize : ℕ) (rows : List Value) : List ℕ → Validated → Outcome Validated
  | [], acc => .ok acc
  | start :: starts, acc =>
      match validateRows codec maxDetectedAt (Chunks.positioned chunkSize rows start) acc with
      | .error e => .error e
      | .ok acc' => validateChunks chunkSize rows starts acc'

/-- The loops of `stream_import_outages`; a step of 0 is refused by `range`. -/
def validate (maxRows chunkSize : ℕ) (rows : List Value) : Outcome Validated :=
  let rows := rows.take maxRows
  if chunkSize = 0 then .error (.valueError "range() arg 3 must not be zero")
  else validateChunks codec maxDetectedAt chunkSize rows (Chunks.starts chunkSize rows.length) ⟨[], []⟩

/-- The result of `stream_import_outages`. -/
structure StreamImport where
  imported : ℕ
  failedCount : ℕ
  failedRows : List ImportRowResult
  totalRows : ℕ
  truncated : ℕ
  validRowIds : List String
  consistency : ImportConsistency
  error : Option String
  errorDetail : Option String
deriving DecidableEq, Repr

/-- The result for an array, from the lists of its loops. -/
def streamResult (consistency : ImportConsistency) (maxRows : ℕ) (rows : List Value) (acc : Validated) :
    StreamImport :=
  let importable : Bool := acc.validRowIds ≠ [] ∧ (acc.failed = [] ∨ consistency = .partial_)
  { imported := if importable then acc.validRowIds.length else 0
    failedCount := acc.failed.length
    failedRows := acc.failed.take maxReportedFailedRows
    totalRows := rows.length
    truncated := rows.length - maxRows
    validRowIds := if importable then acc.validRowIds else []
    consistency := consistency
    error := none
    errorDetail := none }

/-- The result for a body that is no array. -/
def noRows (consistency : ImportConsistency) (error : String) (errorDetail : Option String) : StreamImport :=
  ⟨0, 0, [], 0, 0, [], consistency, some error, errorDetail⟩

/-- `stream_import_outages`. -/
def streamImportOutages (maxRows chunkSize : ℕ) (consistency : ImportConsistency) (body : Decoded) :
    Outcome StreamImport :=
  match body with
  | .notJson detail | .notUnicode detail => .ok (noRows consistency "invalid json" (some detail))
  | .raised e => .error e
  | .value (.arr rows) =>
      match validate codec maxDetectedAt maxRows chunkSize rows with
      | .error e => .error e
      | .ok acc => .ok (streamResult consistency maxRows rows acc)
  | .value _ => .ok (noRows consistency "expected a list" none)

/-! ## One loop over the rows

The stream reports a row that is refused as the import does, with its own `_row_error`. -/

/-- The reading of the stream. -/
def streamParser : RowParser Value where
  outageCreate
    | .obj row => outageCreate codec maxDetectedAt row
    | v => .error (.typeError ("expected a JSON object, got " ++ typeName v))
  rowId
    | .obj row => rowId row
    | _ => .ok none
  rowId_of_valid v p h := by
    cases v with
    | obj row => exact (rowParser codec maxDetectedAt).rowId_of_valid row p h
    | _ => cases h

/-- A result for every row: that of a valid one is the result of a dry run to which its outage is new. -/
def streamRow (index : ℕ) (row : Value) : Outcome ImportRowResult :=
  match (streamParser codec maxDetectedAt).outageCreate row with
  | .error e => rowFailed (streamParser codec maxDetectedAt) index row e
  | .ok p => .ok ⟨index, some p.id, true, none, none, none, some false, none⟩

/-- A row result, sorted into the lists of the loops. -/
def Validated.add (acc : Validated) (result : ImportRowResult) : Validated :=
  if result.ok then acc.accept (result.id.getD "") else acc.fail result

/-- All row results sorted. -/
def split (results : List ImportRowResult) : Validated :=
  ⟨results.filter (!·.ok), (results.filter (·.ok)).map (·.id.getD "")⟩

/-- What follows from the results of the rows. -/
def afterReport {α : Type*} (f : List ImportRowResult → α) : Outcome (List ImportRowResult) → Outcome α
  | .error e => .error e
  | .ok results => .ok (f results)

theorem split_cons_ok {result : ImportRowResult} (h : result.ok = true) (results : List ImportRowResult) :
    split (result :: results) =
      ⟨(split results).failed, result.id.getD "" :: (split results).validRowIds⟩ := by
  simp [split, h]

theorem split_cons_failed {result : ImportRowResult} (h : result.ok = false) (results : List ImportRowResult) :
    split (result :: results) = ⟨result :: (split results).failed, (split results).validRowIds⟩ := by
  simp [split, h]

theorem foldl_add (results : List ImportRowResult) (acc : Validated) :
    results.foldl Validated.add acc =
      ⟨acc.failed ++ (split results).failed, acc.validRowIds ++ (split results).validRowIds⟩ := by
  induction results generalizing acc with
  | nil => simp [split]
  | cons result results ih =>
      rw [List.foldl_cons, ih]
      unfold Validated.add
      cases hok : result.ok with
      | true => simp [Validated.accept, split_cons_ok hok]
      | false => simp [Validated.fail, split_cons_failed hok]

variable {codec maxDetectedAt}

/-- One row: the loop sorts its result. -/
theorem validateRow_eq (row : Value) (index : ℕ) (acc : Validated) :
    validateRow codec maxDetectedAt row index acc =
      match streamRow codec maxDetectedAt index row with
      | .error e => .error e
      | .ok result => .ok (acc.add result) := by
  unfold validateRow streamRow
  cases row with
  | obj members =>
      dsimp only [streamParser]
      cases outageCreate codec maxDetectedAt members with
      | ok p => rfl
      | error e =>
          dsimp only [rowFailed, rowError, streamRowError]
          cases isRowError e with
          | false => rfl
          | true =>
              cases rowId members with
              | error e' => rfl
              | ok id => rfl
  | _ => rfl

theorem validateRows_zipIdx (rows : List Value) (i : ℕ) (acc : Validated) :
    validateRows codec maxDetectedAt (rows.zipIdx i) acc =
      afterReport (·.foldl Validated.add acc) (report (streamRow codec maxDetectedAt) i rows) := by
  induction rows generalizing i acc with
  | nil => rfl
  | cons row rows ih =>
      rw [List.zipIdx_cons, validateRows, validateRow_eq, report]
      cases streamRow codec maxDetectedAt i row with
      | error e => rfl
      | ok result =>
          dsimp only
          rw [ih]
          cases report (streamRow codec maxDetectedAt) (i + 1) rows with
          | error e => rfl
          | ok results => rfl

theorem validateRows_append (xs ys : List (Value × ℕ)) (acc : Validated) :
    validateRows codec maxDetectedAt (xs ++ ys) acc =
      match validateRows codec maxDetectedAt xs acc with
      | .error e => .error e
      | .ok acc' => validateRows codec maxDetectedAt ys acc' := by
  induction xs generalizing acc with
  | nil => rfl
  | cons x xs ih =>
      rw [List.cons_append, validateRows, validateRows]
      cases validateRow codec maxDetectedAt x.1 x.2 acc with
      | error e => rfl
      | ok acc' => exact ih acc'

/-- Chunk by chunk, the loop goes over the rows of the chunks. -/
theorem validateChunks_eq (chunkSize : ℕ) (rows : List Value) (starts : List ℕ) (acc : Validated) :
    validateChunks codec maxDetectedAt chunkSize rows starts acc =
      validateRows codec maxDetectedAt (starts.flatMap (Chunks.positioned chunkSize rows)) acc := by
  induction starts generalizing acc with
  | nil => rfl
  | cons start starts ih =>
      rw [List.flatMap_cons, validateRows_append, validateChunks]
      cases validateRows codec maxDetectedAt (Chunks.positioned chunkSize rows start) acc with
      | error e => rfl
      | ok acc' => exact ih acc'

/-- The loops do not depend on the size of the chunks. -/
theorem validate_eq (maxRows : ℕ) {chunkSize : ℕ} (hchunk : 0 < chunkSize) (rows : List Value) :
    validate codec maxDetectedAt maxRows chunkSize rows =
      afterReport split (report (streamRow codec maxDetectedAt) 0 (rows.take maxRows)) := by
  have hsplit : (List.foldl Validated.add ⟨[], []⟩) = split := by
    funext results
    rw [foldl_add]
    rfl
  unfold validate
  rw [if_neg (Nat.pos_iff_ne_zero.mp hchunk), validateChunks_eq, Chunks.flatMap_starts hchunk,
    validateRows_zipIdx, hsplit]

/-! ## What the result says about the rows -/

variable (codec maxDetectedAt)

/-- The outage of a valid row. -/
def validPayload : Value → Option OutageCreate
  | .obj row => (outageCreate codec maxDetectedAt row).value?
  | _ => none

/-- The row can be reported: its timestamp does not overflow, and its id is a text or missing. -/
structure Nameable (row : Row) : Prop where
  noOverflow : (row.lookup "detected_at").bind codec.readDatetime ≠ some .overflow
  id : row.lookup "id" = none ∨ row.lookup "id" = some .null ∨ ∃ s, row.lookup "id" = some (.str s)

/-- One result for every size of the chunks: it reports refused rows at their positions, its counts add up, and
an atomic import accepts the rows of `batch` or nothing. -/
structure StreamContract (maxRows : ℕ) (consistency : ImportConsistency) (rows batch : List Value)
    (report : StreamImport) : Prop where
  result : ∀ chunkSize, 1 ≤ chunkSize →
    streamImportOutages codec maxDetectedAt maxRows chunkSize consistency (.value (.arr rows)) = .ok report
  positions : ∀ result ∈ report.failedRows, ∃ row e, rows[result.row]? = some row ∧
    validPayload codec maxDetectedAt row = none ∧ streamRowError result.row row e = .ok result
  counts : consistency = .partial_ →
    report.imported + report.failedCount + report.truncated = report.totalRows ∧
      report.totalRows = rows.length
  atomic : consistency = .atomic → report.validRowIds =
    if batch ≠ [] ∧ ∀ row ∈ batch, validPayload codec maxDetectedAt row ≠ none then
      (batch.filterMap (validPayload codec maxDetectedAt)).map OutageCreate.id
    else []

variable {codec maxDetectedAt}

theorem streamParser_eq_ok {row : Value} {p : OutageCreate} :
    (streamParser codec maxDetectedAt).outageCreate row = .ok p ↔ validPayload codec maxDetectedAt row = some p := by
  cases row with
  | obj members =>
      dsimp only [streamParser, validPayload]
      cases outageCreate codec maxDetectedAt members with
      | ok p => simp [Outcome.value?]
      | error e => simp [Outcome.value?]
  | _ => simp [streamParser, validPayload]

/-- A row that the loop reports: accepted under the id of its outage, or refused under its own. -/
theorem streamRow_cases {row : Value} {index : ℕ} {result : ImportRowResult}
    (h : streamRow codec maxDetectedAt index row = .ok result) :
    result.row = index ∧
      ((∃ p, validPayload codec maxDetectedAt row = some p ∧ result.ok = true ∧ result.id = some p.id) ∨
        (validPayload codec maxDetectedAt row = none ∧ result.ok = false ∧
          ∃ e, streamRowError index row e = .ok result)) := by
  unfold streamRow at h
  cases hparse : (streamParser codec maxDetectedAt).outageCreate row with
  | ok p =>
      rw [hparse] at h
      obtain rfl := Outcome.ok.inj h
      exact ⟨rfl, .inl ⟨p, streamParser_eq_ok.mp hparse, rfl, rfl⟩⟩
  | error e =>
      -- a row that is reported at all is one whose exception is caught and whose id can be named
      have hnone : validPayload codec maxDetectedAt row = none := by
        rw [Option.eq_none_iff_forall_ne_some]
        intro p hp
        rw [streamParser_eq_ok.mpr hp] at hparse
        cases hparse
      have hname : rowError (streamParser codec maxDetectedAt) index row e = streamRowError index row e := by
        unfold rowError streamRowError
        cases row with
        | _ => rfl
      rw [hparse] at h
      dsimp only [rowFailed] at h
      split at h
      · rw [hname] at h
        refine ⟨?_, .inr ⟨hnone, ?_, e, h⟩⟩
        all_goals
          unfold streamRowError at h
          dsimp only at h
          split at h
          · cases h
          · obtain rfl := Outcome.ok.inj h
            rfl
      · cases h

variable (codec maxDetectedAt)

/-- The row results of the loop over `rows`, the first of which is at `i`. -/
def Results (i : ℕ) (rows : List Value) (results : List ImportRowResult) : Prop :=
  List.Forall₂ (fun x result => streamRow codec maxDetectedAt x.2 x.1 = .ok result)
    (rows.zipIdx i) results

variable {codec maxDetectedAt} {i : ℕ} {rows : List Value} {results : List ImportRowResult}

theorem results_cons {row : Value} : Results codec maxDetectedAt i (row :: rows) results ↔
    ∃ result rest, streamRow codec maxDetectedAt i row = .ok result ∧
      Results codec maxDetectedAt (i + 1) rows rest ∧ results = result :: rest := by
  unfold Results
  rw [List.zipIdx_cons, List.forall₂_cons_left_iff]

theorem Results.length_eq (h : Results codec maxDetectedAt i rows results) : results.length = rows.length := by
  rw [← List.Forall₂.length_eq h, List.length_zipIdx]

theorem Results.validRowIds (h : Results codec maxDetectedAt i rows results) :
    (split results).validRowIds = (rows.filterMap (validPayload codec maxDetectedAt)).map OutageCreate.id := by
  induction rows generalizing i results with
  | nil =>
      cases h
      rfl
  | cons row rows ih =>
      obtain ⟨result, rest, hrow, hrest, rfl⟩ := results_cons.mp h
      obtain ⟨-, ⟨p, hp, hok, hid⟩ | ⟨hnone, hok, -⟩⟩ := streamRow_cases hrow
      · rw [split_cons_ok hok, List.filterMap_cons_some hp, List.map_cons, hid, ih hrest, Option.getD_some]
      · rw [split_cons_failed hok, List.filterMap_cons_none hnone, ih hrest]

/-- No row is refused exactly when all are valid. -/
theorem Results.failed_eq_nil (h : Results codec maxDetectedAt i rows results) :
    (split results).failed = [] ↔ ∀ row ∈ rows, validPayload codec maxDetectedAt row ≠ none := by
  induction rows generalizing i results with
  | nil =>
      cases h
      simp [split]
  | cons row rows ih =>
      obtain ⟨result, rest, hrow, hrest, rfl⟩ := results_cons.mp h
      rw [List.forall_mem_cons, ← ih hrest]
      obtain ⟨-, ⟨p, hp, hok, -⟩ | ⟨hnone, hok, -⟩⟩ := streamRow_cases hrow
      · rw [split_cons_ok hok, hp, and_iff_right nofun]
      · rw [split_cons_failed hok]
        exact iff_of_false nofun fun hvalid => hvalid.1 hnone

/-- A refused row is reported at its position. -/
theorem Results.position (h : Results codec maxDetectedAt i rows results) {result : ImportRowResult}
    (hresult : result ∈ (split results).failed) :
    ∃ row e, (row, result.row) ∈ rows.zipIdx i ∧ validPayload codec maxDetectedAt row = none ∧
      streamRowError result.row row e = .ok result := by
  obtain ⟨hmem, hfailed⟩ := List.mem_filter.mp hresult
  induction rows generalizing i results with
  | nil =>
      cases h
      cases hmem
  | cons row rows ih =>
      obtain ⟨first, rest, hrow, hrest, rfl⟩ := results_cons.mp h
      rw [List.zipIdx_cons]
      rcases List.mem_cons.mp hmem with rfl | hlater
      · obtain ⟨hindex, ⟨p, -, hok, -⟩ | ⟨hnone, -, e, herror⟩⟩ := streamRow_cases hrow
        · -- an accepted row is not among the failed ones
          simp [hok] at hfailed
        · rw [hindex]
          exact ⟨row, e, List.mem_cons_self, hnone, herror⟩
      · obtain ⟨row', e, hrow', herror⟩ := ih hrest (List.mem_filter.mpr ⟨hlater, hfailed⟩) hlater
        exact ⟨row', e, List.mem_cons_of_mem _ hrow', herror⟩

theorem length_split (results : List ImportRowResult) :
    (split results).validRowIds.length + (split results).failed.length = results.length := by
  induction results with
  | nil => rfl
  | cons result results ih =>
      cases hok : result.ok with
      | true =>
          rw [split_cons_ok hok]
          simp only [List.length_cons]
          omega
      | false =>
          rw [split_cons_failed hok]
          simp only [List.length_cons]
          omega

/-! ## Rows that end the loop -/

theorem rowId_eq_error_iff {row : Row} : (∃ e, rowId row = .error e) ↔
    ¬ (row.lookup "id" = none ∨ row.lookup "id" = some .null ∨ ∃ s, row.lookup "id" = some (.str s)) := by
  unfold rowId
  cases row.lookup "id" with
  | none => simp
  | some v =>
      cases v with
      | _ => simp

/-- A row of a file ends the loop exactly if it cannot be reported. -/
theorem rowParser_raises_iff {row : Row} :
    Raises (rowParser codec maxDetectedAt) row ↔ ¬ Nameable codec row := by
  constructor
  · rintro ⟨e, hcreate, huncaught | hid⟩ hname
    · change outageCreate codec maxDetectedAt row = .error e at hcreate
      unfold outageCreate at hcreate
      split at hcreate
      · obtain rfl := Outcome.error.inj hcreate
        cases huncaught
      · rename_i hoverflow
        exact hname.noOverflow hoverflow
      · split at hcreate
        · cases hcreate
        · obtain rfl := Outcome.error.inj hcreate
          cases huncaught
    · exact rowId_eq_error_iff.mp hid hname.id
  · intro hname
    by_cases hoverflow : (row.lookup "detected_at").bind codec.readDatetime = some .overflow
    · refine ⟨.overflowError "date value out of range", ?_, .inl rfl⟩
      change outageCreate codec maxDetectedAt row = _
      rw [outageCreate, hoverflow]
    · have hid : ∃ e, (rowParser codec maxDetectedAt).rowId row = .error e :=
        rowId_eq_error_iff.mpr fun hid => hname ⟨hoverflow, hid⟩
      cases hcreate : (rowParser codec maxDetectedAt).outageCreate row with
      | error e => exact ⟨e, hcreate, .inr hid⟩
      | ok p =>
          obtain ⟨e, he⟩ := hid
          rw [RowParser.rowId_of_valid _ row p hcreate] at he
          cases he

theorem streamParser_raises_iff {row : Value} : Raises (streamParser codec maxDetectedAt) row ↔
    ∃ members, row = .obj members ∧ ¬ Nameable codec members := by
  cases row with
  | obj members =>
      have hrow : Raises (rowParser codec maxDetectedAt) members ↔ ¬ Nameable codec members := rowParser_raises_iff
      exact hrow.trans (by simp)
  | _ => simp [Raises, streamParser, isRowError]

theorem streamRow_raises_iff {index : ℕ} {row : Value} : (∃ e, streamRow codec maxDetectedAt index row = .error e) ↔
    ∃ members, row = .obj members ∧ ¬ Nameable codec members := by
  have hraises : Raises (streamParser codec maxDetectedAt) row ↔ _ := streamParser_raises_iff
  rw [← hraises]
  unfold streamRow Raises
  cases (streamParser codec maxDetectedAt).outageCreate row with
  | ok p => simp
  | error e => simp [rowFailed_eq_error_iff]

/-! ## The contract of the stream -/

/-- Without a row that ends them, the loops return the split results. -/
theorem exists_results (maxDetectedAt : DateTime) (maxRows : ℕ) (rows : List Value)
    (h : ∀ members, .obj members ∈ rows.take maxRows → Nameable codec members) :
    ∃ results, Results codec maxDetectedAt 0 (rows.take maxRows) results ∧
      ∀ chunkSize, 1 ≤ chunkSize → validate codec maxDetectedAt maxRows chunkSize rows = .ok (split results) := by
  cases hrun : report (streamRow codec maxDetectedAt) 0 (rows.take maxRows) with
  | error e =>
      have hends : ∀ index row, (∃ e, streamRow codec maxDetectedAt index row = .error e) ↔
          ∃ members, row = .obj members ∧ ¬ Nameable codec members := fun _ _ => streamRow_raises_iff
      obtain ⟨row, hrow, members, rfl, hname⟩ := (report_raises_iff hends).mp ⟨e, hrun⟩
      exact absurd (h members hrow) hname
  | ok results =>
      refine ⟨results, report_eq_ok_iff.mp hrun, fun chunkSize hchunk => ?_⟩
      rw [validate_eq maxRows hchunk, hrun]
      rfl

/-- In partial mode every valid row is imported. -/
theorem imported_streamResult (maxRows : ℕ) (rows : List Value) (acc : Validated) :
    (streamResult .partial_ maxRows rows acc).imported = acc.validRowIds.length := by
  unfold streamResult
  by_cases hids : acc.validRowIds = []
  · simp [hids]
  · simp [hids]

/-- In atomic mode the valid rows are accepted if there are any and no row was refused. -/
theorem validRowIds_streamResult (maxRows : ℕ) (rows : List Value) (acc : Validated) :
    (streamResult .atomic maxRows rows acc).validRowIds =
      if acc.validRowIds ≠ [] ∧ acc.failed = [] then acc.validRowIds else [] := by
  simp [streamResult]

/-- The results are accepted as a batch when the batch has rows and all of them are valid. -/
theorem Results.importable_iff (h : Results codec maxDetectedAt i rows results) :
    (split results).validRowIds ≠ [] ∧ (split results).failed = [] ↔
      rows ≠ [] ∧ ∀ row ∈ rows, validPayload codec maxDetectedAt row ≠ none := by
  rw [← h.failed_eq_nil]
  apply and_congr_left
  intro hfailed
  have hlength := length_split results
  rw [hfailed, List.length_nil, Nat.add_zero, h.length_eq] at hlength
  rw [← List.length_pos_iff, ← List.length_pos_iff, hlength]

/-- The rows up to the cap are one batch: each is reported at its position, and an atomic import accepts all of
them or none. For no body does the result depend on the chunks. -/
theorem streamImport_contract (codec : Codec) (maxDetectedAt : DateTime) (maxRows : ℕ)
    (consistency : ImportConsistency) (body : Decoded) :
    (∀ chunkSize chunkSize', 1 ≤ chunkSize → 1 ≤ chunkSize' →
      streamImportOutages codec maxDetectedAt maxRows chunkSize consistency body =
        streamImportOutages codec maxDetectedAt maxRows chunkSize' consistency body) ∧
    ∀ rows, body = .value (.arr rows) →
      (∀ members, .obj members ∈ rows.take maxRows → Nameable codec members) →
        ∃ report, StreamContract codec maxDetectedAt maxRows consistency rows (rows.take maxRows) report := by
  constructor
  · intro chunkSize chunkSize' hchunk hchunk'
    unfold streamImportOutages
    simp only [validate_eq maxRows hchunk, validate_eq maxRows hchunk']
  rintro rows - h
  obtain ⟨results, hresults, hvalidate⟩ := exists_results maxDetectedAt maxRows rows h
  refine ⟨streamResult consistency maxRows rows (split results), ?_, ?_, ?_, ?_⟩
  · intro chunkSize hchunk
    rw [streamImportOutages, hvalidate chunkSize hchunk]
  · intro result hresult
    obtain ⟨row, e, hmem, hnone, herror⟩ := hresults.position (List.mem_of_mem_take hresult)
    refine ⟨row, e, ?_, hnone, herror⟩
    have hget := List.mem_zipIdx_iff_getElem?.mp hmem
    rw [List.getElem?_take] at hget
    split at hget
    · exact hget
    · cases hget
  · -- rows up to the cap are accepted or refused, the others truncated
    rintro rfl
    refine ⟨?_, rfl⟩
    have hsplit := length_split results
    have hlength := hresults.length_eq
    rw [List.length_take] at hlength
    rw [imported_streamResult]
    change (split results).validRowIds.length + (split results).failed.length + (rows.length - maxRows) =
      rows.length
    omega
  · rintro rfl
    rw [validRowIds_streamResult, hresults.validRowIds]
    apply if_congr _ rfl rfl
    rw [← hresults.validRowIds]
    exact hresults.importable_iff

def coreApiDegraded (id : String) : Value :=
  .obj [("id", .str id), ("site_name", .str "Site A"), ("site_id", .str "site-A"), ("severity", .str "high"),
    ("status", .str "open"), ("detected_at", .str "2026-01-01T00:00:00Z"),
    ("description", .str "Core API degraded"), ("affected_services", .arr [.str "core-api"])]

/-- A valid row and a text, in partial mode: both can be reported. -/
theorem coreApiDegraded_streamed :
    ∃ report, StreamContract zuluCodec fiberCut.detectedAt 10 .partial_
      [coreApiDegraded "outage-001", .str "not-an-object"]
      ([coreApiDegraded "outage-001", .str "not-an-object"].take 10) report := by
  refine (streamImport_contract zuluCodec fiberCut.detectedAt 10 .partial_ _).2 _ rfl ?_
  intro members hmem
  obtain hrow | hrow : Value.obj members = coreApiDegraded "outage-001" ∨ Value.obj members = .str "not-an-object" := by
    simpa using hmem
  · rw [Value.obj.inj hrow]
    exact ⟨by decide, .inr (.inr ⟨_, rfl⟩)⟩
  · cases hrow

/-- Two valid rows and a cap of one: an atomic import accepts the first without the second. -/
theorem first_row_accepted_alone :
    ¬ ∃ report, StreamContract zuluCodec fiberCut.detectedAt 1 .atomic
      [coreApiDegraded "outage-001", coreApiDegraded "outage-002"]
      [coreApiDegraded "outage-001", coreApiDegraded "outage-002"] report := by
  rintro ⟨report, h⟩
  have hreport := h.result 100 (by decide)
  have hvalid := h.atomic rfl
  have hrun : streamImportOutages zuluCodec fiberCut.detectedAt 1 100 .atomic
      (.value (.arr [coreApiDegraded "outage-001", coreApiDegraded "outage-002"])) =
        .ok ⟨1, 0, [], 2, 1, ["outage-001"], .atomic, none, none⟩ := by decide
  rw [hrun] at hreport
  obtain rfl := Outcome.ok.inj hreport
  revert hvalid
  decide

end ApexChainx.Import
