import Mathlib.Data.List.Sort
import ApexChainx.Lib.Table
import ApexChainx.Sla.Calculator

/-!
# The tables `sla_results` and `sla_disputes`

`SLARepository` (`app/repositories/sla_repository.py`) and the dispute endpoints that write SLA rows
(`app/api/v1/endpoints/sla_dispute.py`). Every call commits once, at its end, so a call that raises
leaves the tables as they were.

The constraints are those of the migrations: the foreign key to `outages`, the unique pair
`(outage_id, compute_hash)` of 0021, and the partial unique index of 0011 that allows one `is_latest`
row per outage. A violated constraint, or a value that does not fit its column, fails the call.
-/

namespace ApexChainx.Sla

open ApexChainx.Lib

/-- `SLAResultORM`. -/
structure SLAResultRow where
  id : ℕ
  outageId : String
  status : ResultStatus
  mttrMinutes : ℤ
  thresholdMinutes : ℤ
  amount : ℤ
  paymentType : PaymentType
  rating : Rating
  policyVersion : String
  thresholdSource : String
  createdAt : ℤ
  isLatest : Bool
  reasonCode : Option String
  decisionTrace : Option String
  computeHash : Option String
deriving DecidableEq, Repr

/-- `_orm_to_pydantic`. -/
def SLAResultRow.toResult (r : SLAResultRow) : SLAResult where
  id := some r.id
  outageId := r.outageId
  status := r.status
  mttrMinutes := r.mttrMinutes
  thresholdMinutes := r.thresholdMinutes
  amount := r.amount
  paymentType := r.paymentType
  rating := r.rating
  policyVersion := r.policyVersion
  thresholdSource := r.thresholdSource
  reasonCode := r.reasonCode
  decisionTrace := r.decisionTrace
  computeHash := r.computeHash

/-- `DisputeStatus`. -/
inductive DisputeStatus
  | pending
  | resolved
  | rejected
deriving DecidableEq, Repr

/-- `SLADispute`. Its audit log is written but never read by the modelled functions and is left out. -/
structure SLADispute where
  id : ℕ
  slaResultId : ℕ
  baselineSlaResultId : Option ℕ
  proposedSlaResultId : Option ℕ
  flaggedBy : String
  disputeReason : String
  flaggedAt : ℤ
  status : DisputeStatus
  resolvedBy : Option String
  resolutionNotes : Option String
  resolvedAt : Option ℤ
deriving DecidableEq, Repr

/-- The two tables with their id sequences. -/
structure SlaTables where
  results : List SLAResultRow
  disputes : List SLADispute
  nextResultId : ℕ
  nextDisputeId : ℕ
deriving DecidableEq, Repr

/-- Both tables empty; serial ids start at 1. -/
def SlaTables.empty : SlaTables := ⟨[], [], 1, 1⟩

/-- What a call sees around it: the policy state of its process, the outages that exist, the time,
and the default of `created_at`, which the ORM evaluates once when the process imports it. -/
structure CallEnv where
  live : LivePolicy
  outageExists : String → Bool
  now : ℤ
  processStart : ℤ

/-! ## Rows and constraints -/

/-- The row is the current result of the outage. -/
def latestOf (outageId : String) (r : SLAResultRow) : Bool := r.outageId = outageId && r.isLatest

/-- The row is stored for the outage under the compute hash. -/
def hashedAs (outageId hash : String) (r : SLAResultRow) : Bool :=
  r.outageId = outageId && r.computeHash = some hash

/-- The value fits PostgreSQL's `integer`. -/
def fitsInteger (n : ℤ) : Bool := -2147483648 ≤ n && n ≤ 2147483647

/-- The value fits PostgreSQL's `bigint`. -/
def fitsBigint (n : ℤ) : Bool := -9223372036854775808 ≤ n && n ≤ 9223372036854775807

/-- The values of the row fit the columns of `sla_results`. -/
def SLAResultRow.fits (r : SLAResultRow) : Bool :=
  fitsInteger r.mttrMinutes && fitsInteger r.thresholdMinutes && fitsBigint r.amount
    && r.policyVersion.length ≤ 50 && r.thresholdSource.length ≤ 50
    && (r.reasonCode.getD "").length ≤ 50 && (r.computeHash.getD "").length ≤ 64

/-- The pair `(outage_id, compute_hash)` of the row is already stored. -/
def hashTaken (results : List SLAResultRow) (r : SLAResultRow) : Bool :=
  match r.computeHash with
  | none => false
  | some hash => results.any (hashedAs r.outageId hash)

/-- `INSERT INTO sla_results` with the checks of the table. -/
def insertResult (env : CallEnv) (t : SlaTables) (r : SLAResultRow) : Outcome SlaTables :=
  if !r.fits then .error (.dataError "sla_results")
  else if !env.outageExists r.outageId then
    .error (.integrityError "sla_results_outage_id_fkey")
  else if hashTaken t.results r then
    .error (.integrityError "uq_sla_results_outage_compute_hash")
  else if r.isLatest && t.results.any (latestOf r.outageId) then
    .error (.integrityError "uq_sla_results_outage_latest")
  else .ok { t with results := t.results ++ [r], nextResultId := t.nextResultId + 1 }

/-- `UPDATE sla_results SET is_latest = b WHERE id = id`; the partial unique index is checked at the
statement. -/
def setLatest (results : List SLAResultRow) (id : ℕ) (outageId : String) (b : Bool) :
    Outcome (List SLAResultRow) :=
  let rows := updateKey SLAResultRow.id id (fun r => { r with isLatest := b }) results
  if rows.countP (latestOf outageId) ≤ 1 then .ok rows
  else .error (.integrityError "uq_sla_results_outage_latest")

/-! ## `SLARepository` -/

/-- The payload dictionary of `create`. The keys that are read with `get` or only compared may be
absent. -/
structure SLAPayload where
  id : Option (Option ℕ)
  outageId : String
  status : ResultStatus
  mttrMinutes : ℤ
  thresholdMinutes : ℤ
  amount : ℤ
  paymentType : PaymentType
  rating : Rating
  policyVersion : Option String
  thresholdSource : Option String
  reasonCode : Option (Option String)
  decisionTrace : Option (Option String)
  computeHash : Option (Option String)
deriving DecidableEq, Repr

/-- `SLAResult.model_dump()`: every key is present. -/
def SLAResult.modelDump (r : SLAResult) : SLAPayload where
  id := some r.id
  outageId := r.outageId
  status := r.status
  mttrMinutes := r.mttrMinutes
  thresholdMinutes := r.thresholdMinutes
  amount := r.amount
  paymentType := r.paymentType
  rating := r.rating
  policyVersion := some r.policyVersion
  thresholdSource := some r.thresholdSource
  reasonCode := some r.reasonCode
  decisionTrace := some r.decisionTrace
  computeHash := some r.computeHash

/-- `sla_data: SLAResult | Mapping[str, object]`. -/
inductive SLAData
  | model (r : SLAResult)
  | mapping (p : SLAPayload)
deriving DecidableEq, Repr

/-- `sla_data.model_dump()` or `dict(sla_data)`. -/
def SLAData.payload : SLAData → SLAPayload
  | model r => r.modelDump
  | mapping p => p

/-- `payload.get("compute_hash")` where the code tests it for truth: neither missing, nor null, nor
empty. -/
def SLAPayload.hash? (p : SLAPayload) : Option String :=
  p.computeHash.join.filter (· ≠ "")

/-- `find_by_compute_hash`. -/
def findByComputeHash (t : SlaTables) (outageId hash : String) : Option SLAResultRow :=
  t.results.find? (hashedAs outageId hash)

/-- The idempotency lookup that `create` and `create_if_changed` start with. -/
def existingByHash (t : SlaTables) (p : SLAPayload) : Option SLAResultRow :=
  p.hash?.bind (findByComputeHash t p.outageId)

/-- The row `create` adds. -/
def newRow (env : CallEnv) (id : ℕ) (p : SLAPayload) : SLAResultRow where
  id := id
  outageId := p.outageId
  status := p.status
  mttrMinutes := p.mttrMinutes
  thresholdMinutes := p.thresholdMinutes
  amount := p.amount
  paymentType := p.paymentType
  rating := p.rating
  policyVersion := p.policyVersion.getD "1.0"
  thresholdSource := p.thresholdSource.getD "config"
  createdAt := env.processStart
  isLatest := true
  reasonCode := p.reasonCode.join
  decisionTrace := p.decisionTrace.join
  computeHash := p.computeHash.join

/-- Demote every latest row of the outage. -/
def demoteLatest (outageId : String) (results : List SLAResultRow) : List SLAResultRow :=
  results.map fun r => if latestOf outageId r then { r with isLatest := false } else r

/-- The part of `create` after its idempotency check: demote what is latest, insert, commit. -/
def insertLatest (env : CallEnv) (p : SLAPayload) (t : SlaTables) :
    Outcome SLAResult × SlaTables :=
  let t' := if (t.results.find? (latestOf p.outageId)).isSome then
      { t with results := demoteLatest p.outageId t.results } else t
  let row := newRow env t.nextResultId p
  match insertResult env t' row with
  | .error e => (.error e, t)
  | .ok t'' => (.ok row.toResult, t'')

/-- `create`. -/
def create (env : CallEnv) (data : SLAData) (t : SlaTables) : Outcome SLAResult × SlaTables :=
  let p := data.payload
  match existingByHash t p with
  | some existing => (.ok existing.toResult, t)
  | none => insertLatest env p t

/-- `get_by_outage`: the latest row, or for rows from before the flag the newest one. -/
def getByOutage (t : SlaTables) (outageId : String) : Option SLAResult :=
  match t.results.find? (latestOf outageId) with
  | some r => some r.toResult
  | none =>
      (((t.results.filter (·.outageId = outageId)).insertionSort
        (fun a b => b.createdAt ≤ a.createdAt)).head?).map SLAResultRow.toResult

/-- `create_if_changed`. -/
def createIfChanged (env : CallEnv) (data : SLAData) (t : SlaTables) :
    Outcome SLAResult × SlaTables :=
  let p := data.payload
  match existingByHash t p with
  | some existing => (.ok existing.toResult, t)
  | none =>
      match getByOutage t p.outageId with
      | some latest =>
          if latest.modelDump = p then (.ok latest, t) else create env (.mapping p) t
      | none => create env (.mapping p) t

/-! ## The dispute endpoints -/

/-- The pending dispute of an SLA result. -/
def pendingDispute (t : SlaTables) (slaResultId : ℕ) : Option SLADispute :=
  t.disputes.find? fun d => d.slaResultId = slaResultId && d.status = .pending

/-- `flag_dispute`. -/
def flagDispute (env : CallEnv) (slaResultId : ℕ) (email reason : String) (t : SlaTables) :
    Outcome SLADispute × SlaTables :=
  match t.results.find? (·.id = slaResultId) with
  | none => (.error (.http 404 "SLA result not found"), t)
  | some _ =>
      match pendingDispute t slaResultId with
      | some _ => (.error (.http 409 "An active dispute already exists for this SLA result."), t)
      | none =>
          let d : SLADispute := {
            id := t.nextDisputeId
            slaResultId := slaResultId
            baselineSlaResultId := some slaResultId
            proposedSlaResultId := none
            flaggedBy := email
            disputeReason := reason
            flaggedAt := env.now
            status := .pending
            resolvedBy := none
            resolutionNotes := none
            resolvedAt := none }
          (.ok d, { t with disputes := t.disputes ++ [d], nextDisputeId := t.nextDisputeId + 1 })

/-- `CreateProposedSLARequest`. -/
structure ProposedRequest where
  severity : String
  mttrMinutes : ℤ
  policyVersion : String
  thresholdSource : String
deriving DecidableEq, Repr

/-- The row `create_proposed_sla` adds: not latest, and without a compute hash. -/
def proposedRow (env : CallEnv) (id : ℕ) (r : SLAResult) : SLAResultRow where
  id := id
  outageId := r.outageId
  status := r.status
  mttrMinutes := r.mttrMinutes
  thresholdMinutes := r.thresholdMinutes
  amount := r.amount
  paymentType := r.paymentType
  rating := r.rating
  policyVersion := r.policyVersion
  thresholdSource := r.thresholdSource
  createdAt := env.processStart
  isLatest := false
  reasonCode := r.reasonCode
  decisionTrace := r.decisionTrace
  computeHash := none

/-- `create_proposed_sla`. The calculation is made without timestamps, so it never reaches the
digest; any function serves as SHA-256. -/
def createProposedSla (env : CallEnv) (slaResultId : ℕ) (req : ProposedRequest) (t : SlaTables) :
    Outcome SLADispute × SlaTables :=
  match pendingDispute t slaResultId with
  | none => (.error (.http 404 "No pending dispute found for this SLA result."), t)
  | some d =>
      match t.results.find? (fun r => some r.id = d.baselineSlaResultId) with
      | none => (.error (.http 404 "Baseline SLA not found"), t)
      | some baseline =>
          match calculate id env.live baseline.outageId req.severity req.mttrMinutes
              req.policyVersion req.thresholdSource "" "" with
          | .error e => (.error e, t)
          | .ok new =>
              match insertResult env t (proposedRow env t.nextResultId new) with
              | .error e => (.error e, t)
              | .ok t' =>
                  let d' := { d with proposedSlaResultId := some t.nextResultId }
                  (.ok d', { t' with disputes := updateKey SLADispute.id d.id (fun _ => d') t.disputes })

/-- `DisputeResolveRequest`. -/
structure ResolveDisputeRequest where
  resolutionNotes : String
  status : DisputeStatus
  applyProposed : Bool
deriving DecidableEq, Repr

/-- The flush that applies a proposed result: the unit of work emits its `UPDATE`s in primary-key
order, so a proposal older than the latest row is promoted while that row still has the flag. -/
def flushApply (results : List SLAResultRow) (proposed : SLAResultRow) :
    Outcome (List SLAResultRow) :=
  match results.find? (latestOf proposed.outageId) with
  | none => setLatest results proposed.id proposed.outageId true
  | some latest =>
      if latest.id = proposed.id then .ok results
      else if latest.id < proposed.id then
        match setLatest results latest.id proposed.outageId false with
        | .error e => .error e
        | .ok rows => setLatest rows proposed.id proposed.outageId true
      else
        match setLatest results proposed.id proposed.outageId true with
        | .error e => .error e
        | .ok rows => setLatest rows latest.id proposed.outageId false

/-- The result rows after a resolution, or why it is refused. -/
def applyResolution (t : SlaTables) (d : SLADispute) (req : ResolveDisputeRequest) :
    Outcome (List SLAResultRow) :=
  if req.status = .resolved ∧ req.applyProposed then
    match d.proposedSlaResultId.filter (· ≠ 0) with
    | none => .error (.http 400 "No proposed SLA result to apply.")
    | some pid =>
        match t.results.find? (·.id = pid) with
        | none => .error (.http 404 "Proposed SLA not found")
        | some proposed => flushApply t.results proposed
  else .ok t.results

/-- `resolve_dispute`. -/
def resolveDispute (env : CallEnv) (slaResultId : ℕ) (email : String)
    (req : ResolveDisputeRequest) (t : SlaTables) : Outcome SLADispute × SlaTables :=
  if req.status = .pending then
    (.error (.http 400 "Resolution status must be 'resolved' or 'rejected'."), t)
  else
    match pendingDispute t slaResultId with
    | none => (.error (.http 404 "No pending dispute found for this SLA result."), t)
    | some d =>
        match applyResolution t d req with
        | .error e => (.error e, t)
        | .ok rows =>
            let d' := { d with
              status := req.status
              resolvedBy := some email
              resolutionNotes := some req.resolutionNotes
              resolvedAt := some env.now }
            (.ok d', { t with
              results := rows
              disputes := updateKey SLADispute.id d.id (fun _ => d') t.disputes })

/-! ## Calls -/

/-- The calls that write the two tables. -/
inductive Call
  | create (data : SLAData)
  | createIfChanged (data : SLAData)
  | flagDispute (slaResultId : ℕ) (email reason : String)
  | createProposedSla (slaResultId : ℕ) (req : ProposedRequest)
  | resolveDispute (slaResultId : ℕ) (email : String) (req : ResolveDisputeRequest)
deriving DecidableEq, Repr

/-- What a call returns. -/
inductive Reply
  | result (r : SLAResult)
  | dispute (d : SLADispute)
deriving DecidableEq, Repr

/-- Wrap the return value of a call. -/
def Outcome.wrap {α : Type} (f : α → Reply) (x : Outcome α × SlaTables) :
    Outcome Reply × SlaTables :=
  match x with
  | (.ok a, t) => (.ok (f a), t)
  | (.error e, t) => (.error e, t)

/-- Run one call. -/
def exec (env : CallEnv) (t : SlaTables) : Call → Outcome Reply × SlaTables
  | .create data => Outcome.wrap .result (create env data t)
  | .createIfChanged data => Outcome.wrap .result (createIfChanged env data t)
  | .flagDispute r email reason => Outcome.wrap .dispute (flagDispute env r email reason t)
  | .createProposedSla r req => Outcome.wrap .dispute (createProposedSla env r req t)
  | .resolveDispute r email req => Outcome.wrap .dispute (resolveDispute env r email req t)

/-- Run calls one after another. -/
def execAll (t : SlaTables) : List (CallEnv × Call) → SlaTables
  | [] => t
  | (env, c) :: cs => execAll (exec env t c).2 cs

/-- The outage a call gives a result to, when it is a `create` or a `create_if_changed`. -/
def Call.outage? : Call → Option String
  | .create data => some data.payload.outageId
  | .createIfChanged data => some data.payload.outageId
  | _ => none

/-- The outages that calls of the list have given a result to. -/
def given (t : SlaTables) : List (CallEnv × Call) → List String
  | [] => []
  | (env, c) :: cs =>
      (if (exec env t c).1.isOk then c.outage?.toList else []) ++ given (exec env t c).2 cs

end ApexChainx.Sla
