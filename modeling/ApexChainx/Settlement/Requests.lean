import Mathlib.Logic.Function.Basic
import ApexChainx.Lib.Transition
import ApexChainx.Payment.Status
import ApexChainx.Settlement.Outage

/-!
# Settling an outage

The requests that turn a resolved outage into an SLA result and a payment: `resolve_outage` and
`recompute_sla` (`app/api/v1/endpoints/outages.py`), with the edits, the disputes and the policy
publishes that happen between them. A settlement is a sequence of separately committed steps: the
outage row, the SLA row, the denormalised status, the payment row. A request that raises keeps what it
had committed before.

SHA-256 is a parameter. The uuids of a payment (`id`, `transaction_hash`) never repeat, so its number
stands for them; its asset and addresses are constants of the settings and are left out.
-/

namespace ApexChainx.Settlement

open ApexChainx.Lib ApexChainx.Sla ApexChainx.Payment

/-- `PaymentTransactionORM`. -/
structure PaymentTransaction where
  id : ℕ
  type : PaymentType
  amount : ℤ
  status : PaymentStatus
  outageId : String
  slaResultId : Option ℕ
  createdAt : DateTime
  confirmedAt : Option DateTime
deriving DecidableEq, Repr

/-- The database, and the policy dictionaries of every process that serves requests. -/
structure Sys where
  outages : List OutageRow
  sla : SlaTables
  payments : List PaymentTransaction
  policies : ℕ → LivePolicy

/-- Outages without any result, dispute or payment, served by processes that have just started. -/
def Sys.init (outages : List OutageRow) : Sys :=
  ⟨outages, SlaTables.empty, [], fun _ => initialPolicy⟩

/-- What surrounds one request: the process that serves it, the time, the time that process was
imported, and the exception of `trigger_sla_violation_webhooks`, if it raises one. -/
structure Env where
  process : ℕ
  now : DateTime
  processStart : DateTime
  webhooks : Option ApiError
deriving DecidableEq, Repr

/-- The environment of the SLA tables in a request. -/
def Sys.callEnv (s : Sys) (env : Env) : CallEnv where
  live := s.policies env.process
  outageExists := fun o => s.outages.any (·.id = o)
  now := env.now.ticks
  processStart := env.processStart.ticks

/-! ## The payment of a result -/

/-- `get_by_sla_result`. -/
def getBySlaResult (payments : List PaymentTransaction) (slaResultId : ℕ) :
    Option PaymentTransaction :=
  payments.find? (·.slaResultId = some slaResultId)

/-- `INSERT INTO payment_transactions` with the constraints of migration 0011. -/
def insertPayment (payments : List PaymentTransaction) (p : PaymentTransaction) :
    Outcome (List PaymentTransaction) :=
  if !fitsBigint p.amount then .error (.dataError "amount")
  else if payments.any (fun q => q.outageId = p.outageId && q.type = p.type) then
    .error (.integrityError "uq_payment_outage_type")
  else if payments.any (fun q => p.slaResultId.isSome && q.slaResultId = p.slaResultId) then
    .error (.integrityError "uq_payment_sla_result_id")
  else .ok (payments ++ [p])

/-- The transaction `create_for_sla_result` builds. -/
def newPayment (now : DateTime) (number : ℕ) (outageId : String) (resultId : ℕ) (r : SLAResult) :
    PaymentTransaction where
  id := number
  type := r.paymentType
  amount := r.amount.natAbs
  status := .pending
  outageId := outageId
  slaResultId := some resultId
  createdAt := now
  confirmedAt := none

/-- `create_for_sla_result`. -/
def createForSlaResult (now : DateTime) (outageId : String) (r : SLAResult)
    (payments : List PaymentTransaction) : Outcome PaymentTransaction × List PaymentTransaction :=
  match r.id with
  | none => (.error (.valueError "SLA result id is required to generate a payment record"), payments)
  | some resultId =>
      match getBySlaResult payments resultId with
      | some existing => (.ok existing, payments)
      | none =>
          let p := newPayment now payments.length outageId resultId r
          match insertPayment payments p with
          | .error e => (.error e, payments)
          | .ok payments' => (.ok p, payments')

/-- A payment that cannot be created leaves the table as it was. -/
theorem createForSlaResult_error {now : DateTime} {outageId : String} {r : SLAResult}
    {payments payments' : List PaymentTransaction} {e : ApiError}
    (h : createForSlaResult now outageId r payments = (.error e, payments')) :
    payments' = payments := by
  unfold createForSlaResult at h
  cases hid : r.id with
  | none =>
      simp only [hid, Prod.mk.injEq] at h
      exact h.2.symm
  | some resultId =>
      simp only [hid] at h
      cases hget : getBySlaResult payments resultId with
      | some existing => simp [hget] at h
      | none =>
          cases hins : insertPayment payments
              (newPayment now payments.length outageId resultId r) with
          | error e' =>
              simp only [hget, hins, Prod.mk.injEq] at h
              exact h.2.symm
          | ok rows => simp [hget, hins] at h

/-! ## The requests -/

section

variable (sha256 : String → String)

/-- The text of a nullable timestamp, empty for null. -/
def isoformatOrEmpty : Option DateTime → String
  | some t => t.isoformat
  | none => ""

/-- The calculation of a settlement, through the contract adapter. A missing MTTR fails the comparison
with the threshold, after the severity was looked up. -/
def settlementResult (live : LivePolicy) (o : OutageRow) (mttr : Option ℤ) : Outcome SLAResult :=
  match mttr with
  | none =>
      match Severity.ofString o.severity with
      | none => .error (.valueError ("Unknown severity level: " ++ lower o.severity))
      | some _ => .error (.typeError "'>' not supported between instances of 'NoneType' and 'int'")
  | some m =>
      match calculateSla sha256 live o.id o.severity m "1.0" "config" o.detectedAt.isoformat
          (isoformatOrEmpty o.resolvedAt) with
      | .error e => .error e
      | .ok raw => translateContractResult raw

/-- The steps `resolve_outage` and `recompute_sla` share, from the calculation on: store the result
unless it is there, denormalise it, create its payment, trigger the webhooks of a violation. Each of
the first three commits. -/
def settle (env : Env) (o : OutageRow) (mttr : Option ℤ) (s : Sys) :
    Outcome (SLAResult × PaymentTransaction) × Sys :=
  match settlementResult sha256 (s.policies env.process) o mttr with
  | .error e => (.error e, s)
  | .ok sla =>
      match createIfChanged (s.callEnv env) (.model sla) s.sla with
      | (.error e, _) => (.error e, s)
      | (.ok stored, tables) =>
          let s' := { s with sla := tables, outages := setSlaStatus o.id stored s.outages }
          match createForSlaResult env.now o.id stored s'.payments with
          | (.error e, _) => (.error e, s')
          | (.ok payment, payments) =>
              let s'' := { s' with payments := payments }
              match if stored.status = .violated then env.webhooks else none with
              | some e => (.error e, s'')
              | none => (.ok (stored, payment), s'')

/-- What a request answers with. -/
inductive SettlementReply
  | settled (sla : SLAResult) (payment : PaymentTransaction)
  | outage (o : OutageRow)
  | dispute (d : SLADispute)
  | published
deriving DecidableEq, Repr

/-- Wrap the return value of a settlement. -/
def wrapSettled (x : Outcome (SLAResult × PaymentTransaction) × Sys) :
    Outcome SettlementReply × Sys :=
  match x with
  | (.ok (sla, payment), s) => (.ok (.settled sla payment), s)
  | (.error e, s) => (.error e, s)

/-- `resolve_outage`. The model `Outage` declares no `mttr_minutes`, so the comparison that should
recognise a replay raises on every resolved outage; the replay branch behind it never runs. -/
def resolveOutage (env : Env) (id : String) (mttr : ℤ) (s : Sys) : Outcome SettlementReply × Sys :=
  let body : Outcome SettlementReply × Sys :=
    match getOutage s.outages id with
    | some ⟨_, _, .resolved, _, _, _, _⟩ => (.error (.attributeError "Outage" "mttr_minutes"), s)
    | _ =>
        match resolveRow env.now id mttr s.outages with
        | (.error e, _) => (.error (.http 400 e.detail), s)
        | (.ok none, _) => (.error (.http 404 "Outage not found"), s)
        | (.ok (some o), outages) =>
            wrapSettled (settle sha256 env o (some mttr) { s with outages := outages })
  (body.1.locked, body.2)

/-- `recompute_sla`. -/
def recomputeSla (env : Env) (id : String) (s : Sys) : Outcome SettlementReply × Sys :=
  match getOutage s.outages id with
  | none => (.error (.http 404 "Outage not found"), s)
  | some o =>
      if o.status ≠ .resolved then
        (.error (.http 400 "Outage must be resolved to recompute SLA"), s)
      else
        let body := wrapSettled (settle sha256 env o o.mttrMinutes s)
        (body.1.locked, body.2)

/-- The requests of a settlement run. A publish replaces one severity's entries in the dictionaries of
the process that serves it; a restart reloads the built-in ones. -/
inductive Request
  | updateOutage (id : String) (u : OutageUpdate)
  | resolveOutage (id : String) (mttr : ℤ)
  | recomputeSla (id : String)
  | flagDispute (slaResultId : ℕ) (email reason : String)
  | createProposedSla (slaResultId : ℕ) (req : ProposedRequest)
  | resolveDispute (slaResultId : ℕ) (email : String) (req : ResolveDisputeRequest)
  | publish (severity : Severity) (policy : CachedPolicy)
  | restart
deriving DecidableEq, Repr

/-- A dispute request runs on the SLA tables only. -/
def onDisputes (s : Sys) (x : Outcome SLADispute × SlaTables) : Outcome SettlementReply × Sys :=
  match x with
  | (.ok d, tables) => (.ok (.dispute d), { s with sla := tables })
  | (.error e, tables) => (.error e, { s with sla := tables })

/-- Serve one request. -/
def serve (s : Sys) (env : Env) : Request → Outcome SettlementReply × Sys
  | .updateOutage id u =>
      match updateOutage id u s.outages with
      | (.ok o, outages) => (.ok (.outage o), { s with outages := outages })
      | (.error e, outages) => (.error e, { s with outages := outages })
  | .resolveOutage id mttr => resolveOutage sha256 env id mttr s
  | .recomputeSla id => recomputeSla sha256 env id s
  | .flagDispute r email reason => onDisputes s (flagDispute (s.callEnv env) r email reason s.sla)
  | .createProposedSla r req => onDisputes s (createProposedSla (s.callEnv env) r req s.sla)
  | .resolveDispute r email req => onDisputes s (resolveDispute (s.callEnv env) r email req s.sla)
  | .publish severity policy =>
      (.ok .published, { s with
        policies := Function.update s.policies env.process
          (Function.update (s.policies env.process) severity policy) })
  | .restart =>
      (.ok .published, { s with policies := Function.update s.policies env.process initialPolicy })

/-- The requests served one after another. Every request is answered, so every schedule runs through. -/
def step (s : Sys) (a : Env × Request) : Option Sys := some (serve sha256 s a.1 a.2).2

end

end ApexChainx.Settlement
