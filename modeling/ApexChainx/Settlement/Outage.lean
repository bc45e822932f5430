import ApexChainx.Core.DateTime
import ApexChainx.Core.Error
import ApexChainx.Lib.Table
import ApexChainx.Sla.Repository

/-!
# The table `outages`

The columns of `OutageORM` that the settlement of an outage reads or writes, and the two methods of
`OutageRepository` (`app/repositories/outage_repository.py`) that change them: `update`, behind the
`PUT` and `PATCH` endpoints, and `resolve`.
-/

namespace ApexChainx.Settlement

open ApexChainx.Lib ApexChainx.Sla

/-- `OutageStatus` (`app/models/enums.py`). -/
inductive OutageStatus
  | open
  | resolved
deriving DecidableEq, Repr

/-- The stored text. -/
def OutageStatus.value : OutageStatus → String
  | .open => "open"
  | .resolved => "resolved"

/-- The dictionary `sla_status` that the requests denormalise onto the outage. -/
structure SLAStatus where
  status : ResultStatus
  mttrMinutes : ℤ
  thresholdMinutes : ℤ
deriving DecidableEq, Repr

/-- `OutageORM`. The severity is the stored text; the API writes only the four known ones. -/
structure OutageRow where
  id : String
  severity : String
  status : OutageStatus
  detectedAt : DateTime
  resolvedAt : Option DateTime
  mttrMinutes : Option ℤ
  slaStatus : Option SLAStatus
deriving DecidableEq, Repr

/-- `get` and `get_orm`. -/
def getOutage (outages : List OutageRow) (id : String) : Option OutageRow :=
  outages.find? (·.id = id)

/-- `ALLOWED_STATUS_TRANSITIONS`. -/
def allowedStatusTransitions : OutageStatus → List OutageStatus
  | .open => [.open, .resolved]
  | .resolved => [.resolved]

/-- `validate_status_transition`: the error it raises, if any. -/
def validateStatusTransition (current next : OutageStatus) : Option ApiError :=
  if next ∈ allowedStatusTransitions current then none
  else some (.valueError ("Invalid status transition: " ++ current.value ++ " -> " ++ next.value))

/-- `OutageUpdate`, `exclude_unset`: each field is absent, null or a value. The fields no modelled
function reads are left out. -/
structure OutageUpdate where
  severity : Option (Option Severity)
  status : Option (Option OutageStatus)
  resolvedAt : Option (Option DateTime)
deriving DecidableEq, Repr

/-- The row after `setattr` of every field that was set. -/
def OutageUpdate.apply (u : OutageUpdate) (o : OutageRow) : OutageRow :=
  { o with
    severity := match u.severity with
      | some (some s) => s.value
      | _ => o.severity
    status := match u.status with
      | some (some s) => s
      | _ => o.status
    resolvedAt := u.resolvedAt.getD o.resolvedAt }

/-- `OutageRepository.update` behind its endpoint. A null severity or status reaches the `NOT NULL`
column and fails the commit. -/
def updateOutage (id : String) (u : OutageUpdate) (outages : List OutageRow) :
    Outcome OutageRow × List OutageRow :=
  match getOutage outages id with
  | none => (.error (.http 404 "Outage not found"), outages)
  | some o =>
      match u.status.join.bind (validateStatusTransition o.status) with
      | some e => (.error (.http 400 e.detail), outages)
      | none =>
          if u.severity = some none then (.error (.integrityError "severity"), outages)
          else if u.status = some none then (.error (.integrityError "status"), outages)
          else (.ok (u.apply o), updateKey OutageRow.id id (fun _ => u.apply o) outages)

/-- `OutageRepository.resolve`; `ok none` when there is no such outage. -/
def resolveRow (now : DateTime) (id : String) (mttr : ℤ) (outages : List OutageRow) :
    Outcome (Option OutageRow) × List OutageRow :=
  match getOutage outages id with
  | none => (.ok none, outages)
  | some o =>
      if o.status = .resolved ∧ o.mttrMinutes = some mttr then (.ok (some o), outages)
      else
        match validateStatusTransition o.status .resolved with
        | some e => (.error e, outages)
        | none =>
            if !fitsInteger mttr then (.error (.dataError "mttr_minutes"), outages)
            else
              let o' := { o with
                status := .resolved
                mttrMinutes := some mttr
                resolvedAt := some now }
              (.ok (some o'), updateKey OutageRow.id id (fun _ => o') outages)

/-- The commit that denormalises a stored result onto its outage. -/
def setSlaStatus (id : String) (stored : SLAResult) (outages : List OutageRow) : List OutageRow :=
  updateKey OutageRow.id id
    (fun o => { o with
      slaStatus := some ⟨stored.status, stored.mttrMinutes, stored.thresholdMinutes⟩ }) outages

end ApexChainx.Settlement
