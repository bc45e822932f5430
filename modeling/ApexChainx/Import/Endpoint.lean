import ApexChainx.Import.Outage

/-!
# Importing a file of outages

`import_outages` (`app/api/v1/endpoints/outages.py`), from the rows of the file on: the dry run, the atomic
import, which deletes again what it has created when a row fails, and the partial import. The construction
of `OutageCreate` from a row is a parameter. The counts of the response are those of its row results and
are left out.
-/

namespace ApexChainx.Import

/-- `ImportConsistency`. -/
inductive ImportConsistency
  | atomic
  | partial_
deriving DecidableEq, Repr

/-- `ImportRowResult`; `ok` is its status, and the errors are those of one exception. -/
structure ImportRowResult where
  row : ℕ
  id : Option String
  ok : Bool
  error : Option ApiError
  outageId : Option String
  persisted : Option Bool
  duplicate : Option Bool
  existingId : Option String
deriving DecidableEq, Repr

/-- What is read off a row of the file. -/
structure RowParser (ρ : Type*) where
  /-- `OutageCreate(**row)`. -/
  outageCreate : ρ → Outcome OutageCreate
  /-- `row.get("id")` as the `id` of a row result: it raises if the row is no object, or its id no text. -/
  rowId : ρ → Outcome (Option String)
  rowId_of_valid : ∀ row p, outageCreate row = .ok p → rowId row = .ok (some p.id)

/-- What the database does while the file is imported: where it fails at a row, and whether it fails at the
commit after the last one. -/
structure DbFaults where
  fault : ℕ → Option Fault
  commitFails : Bool

/-- A database that does not fail, and refuses no new row. -/
def noFaults : DbFaults := ⟨fun _ => none, false⟩

variable {ρ : Type*} (parser : RowParser ρ)

/-- `_row_error`. -/
def rowError (i : ℕ) (row : ρ) (e : ApiError) : Outcome ImportRowResult :=
  match parser.rowId row with
  | .error e' => .error e'
  | .ok id => .ok ⟨i, id, false, some e, none, none, none, none⟩

/-- The exceptions that the loops over the rows catch: `ValidationError`, `ValueError`, `TypeError` and
`KeyError`. -/
def isRowError : ApiError → Bool
  | .valueError _ => true
  | .typeError _ => true
  | _ => false

/-- The `except` of a loop over the rows. -/
def rowFailed (i : ℕ) (row : ρ) (e : ApiError) : Outcome ImportRowResult :=
  if isRowError e then rowError parser i row e else .error e

/-! ## The dry run -/

/-- One row of the dry run. -/
def dryRow (outages : List OutageRow) (i : ℕ) (row : ρ) : Outcome ImportRowResult :=
  match parser.outageCreate row with
  | .error e => rowFailed parser i row e
  | .ok p =>
      match checkDuplicate outages p with
      | .error e => rowFailed parser i row e
      | .ok (some existing) => .ok ⟨i, some p.id, true, none, none, none, some true, some existing.id⟩
      | .ok none => .ok ⟨i, some p.id, true, none, none, none, some false, none⟩

/-- A result for every row at its position, up to a row that raises. -/
def report (rowResult : ℕ → ρ → Outcome ImportRowResult) : ℕ → List ρ → Outcome (List ImportRowResult)
  | _, [] => .ok []
  | i, row :: rows =>
      match rowResult i row with
      | .error e => .error e
      | .ok result =>
          match report rowResult (i + 1) rows with
          | .error e => .error e
          | .ok results => .ok (result :: results)

def dryRun (outages : List OutageRow) : ℕ → List ρ → Outcome (List ImportRowResult) :=
  report (dryRow parser outages)

/-! ## The atomic import -/

/-- The rows that are valid, and a result for every row. -/
def parseRows : ℕ → List ρ → Outcome (List ImportRowResult × List OutageCreate)
  | _, [] => .ok ([], [])
  | i, row :: rows =>
      let parsed : Outcome (ImportRowResult × List OutageCreate) :=
        match parser.outageCreate row with
        | .error e =>
            match rowFailed parser i row e with
            | .error e' => .error e'
            | .ok result => .ok (result, [])
        | .ok p =>
            match parser.rowId row with
            | .error e => .error e
            | .ok id => .ok (⟨i, id, true, none, none, none, none, none⟩, [p])
      match parsed with
      | .error e => .error e
      | .ok (result, p) =>
          match parseRows (i + 1) rows with
          | .error e => .error e
          | .ok (results, ps) => .ok (result :: results, p ++ ps)

/-- The loop over the parsed rows, with the ids that were persisted before; the commit at its end. -/
def createRows (db : DbFaults) : ℕ → List OutageCreate → List OutageRow → List String →
    Outcome (List (OutageRow × Bool)) × List OutageRow × List String
  | _, [], outages, persisted =>
      if db.commitFails then (.error Fault.commit.error, outages, persisted) else (.ok [], outages, persisted)
  | i, p :: ps, outages, persisted =>
      match createOrGetExisting (db.fault i) p outages with
      | (.error e, outages') => (.error e, outages', persisted)
      | (.ok created, outages') =>
          match createRows db (i + 1) ps outages'
              (if created.2 then persisted ++ [created.1.id] else persisted) with
          | (.error e, outages'', persisted') => (.error e, outages'', persisted')
          | (.ok rest, outages'', persisted') => (.ok (created :: rest), outages'', persisted')

/-- The deletes that undo a batch. -/
def compensate (financial : List String) : List String → List OutageRow → Outcome Unit × List OutageRow
  | [], outages => (.ok (), outages)
  | id :: ids, outages =>
      match deleteOutage financial id outages with
      | (.error e, outages') => (.error e, outages')
      | (.ok _, outages') => compensate financial ids outages'

/-- The detail of a batch that failed. -/
def batchFailed : ApiError → String
  | .databaseError detail => "Transaction failed, batch rolled back: " ++ detail
  | e => "Unexpected import error, batch rolled back: " ++ e.detail

/-- The result of a row after its outage was created or found. -/
def ImportRowResult.fill (result : ImportRowResult) (created : OutageRow × Bool) : ImportRowResult :=
  if created.2 then { result with outageId := some created.1.id, persisted := some true }
  else
    { result with
      outageId := some created.1.id
      persisted := some false
      duplicate := some true
      existingId := some created.1.id }

def importAtomic (db : DbFaults) (financial : List String) (rows : List ρ) (outages : List OutageRow) :
    Outcome (List ImportRowResult) × List OutageRow :=
  match parseRows parser 0 rows with
  | .error e => (.error e, outages)
  | .ok (results, parsed) =>
      if results.any (!·.ok) then (.ok results, outages)
      else
        match createRows db 0 parsed outages [] with
        | (.ok created, outages', _) => (.ok (List.zipWith ImportRowResult.fill results created), outages')
        | (.error e, outages', persisted) =>
            match compensate financial persisted outages' with
            | (.error e', outages'') => (.error e', outages'')
            | (.ok _, outages'') => (.error (.http 500 (batchFailed e)), outages'')

/-! ## The partial import -/

/-- One row of the partial import. A failure of the database is not caught. -/
def partialRow (db : DbFaults) (i : ℕ) (row : ρ) (outages : List OutageRow) :
    Outcome ImportRowResult × List OutageRow :=
  match parser.outageCreate row with
  | .error e => (rowFailed parser i row e, outages)
  | .ok p =>
      match createOrGetExisting (db.fault i) p outages with
      | (.error e, outages') => (rowFailed parser i row e, outages')
      | (.ok (created, persisted), outages') =>
          (.ok ⟨i, some p.id, true, none, some created.id, some persisted, some (!persisted),
            if persisted then none else some created.id⟩, outages')

def importPartial (db : DbFaults) : ℕ → List ρ → List OutageRow →
    Outcome (List ImportRowResult) × List OutageRow
  | _, [], outages => (.ok [], outages)
  | i, row :: rows, outages =>
      match partialRow parser db i row outages with
      | (.error e, outages') => (.error e, outages')
      | (.ok result, outages') =>
          match importPartial db (i + 1) rows outages' with
          | (.error e, outages'') => (.error e, outages'')
          | (.ok results, outages'') => (.ok (result :: results), outages'')

/-- `import_outages`, on the rows of the file. -/
def importOutages (db : DbFaults) (financial : List String) (isDryRun : Bool)
    (consistency : ImportConsistency) (rows : List ρ) (outages : List OutageRow) :
    Outcome (List ImportRowResult) × List OutageRow :=
  if isDryRun then (dryRun parser outages 0 rows, outages)
  else
    match consistency with
    | .atomic => importAtomic parser db financial rows outages
    | .partial_ => importPartial parser db 0 rows outages

/-! ## A file of payloads -/

/-- Rows that are payloads already. -/
def payloadParser : RowParser OutageCreate where
  outageCreate := .ok
  rowId p := .ok (some p.id)
  rowId_of_valid p p' h := by rw [Outcome.ok.inj h]

theorem valid_fiberCut : DateTime.Valid 2026 1 1 0 0 0 0 := by decide

def fiberCut : OutageCreate where
  id := "OUT001"
  siteName := "Site A"
  siteId := none
  severity := .critical
  status := .open
  detectedAt := .ofValid valid_fiberCut
  description := "Fiber cut"
  affectedServices := ["4G"]
  affectedSubscribers := none
  assignedTo := none
  createdBy := none
  location := none

end ApexChainx.Import
