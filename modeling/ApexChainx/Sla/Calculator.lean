import Mathlib.Data.Int.Notation
import ApexChainx.Core.Error
import ApexChainx.Sla.Policy

/-!
# The SLA calculator

`SLACalculator.calculate` (`app/services/sla/sla_calculator.py`) and the contract adapter the requests
call it through (`app/services/contracts/sla_adapter.py`, `translation.py`). SHA-256 is a parameter:
nothing here depends on what it computes.
-/

namespace ApexChainx.Sla

/-- `SLAResult.status`. -/
inductive ResultStatus
  | met
  | violated
deriving DecidableEq, Repr

/-- `SLAResult.payment_type`. -/
inductive PaymentType
  | reward
  | penalty
deriving DecidableEq, Repr

/-- `SLAResult.rating`. -/
inductive Rating
  | exceptional
  | excellent
  | good
  | poor
deriving DecidableEq, Repr

/-- The text of a rating. -/
def Rating.value : Rating → String
  | exceptional => "exceptional"
  | excellent => "excellent"
  | good => "good"
  | poor => "poor"

/-- `SLAResult` (`app/models/sla.py`). -/
structure SLAResult where
  id : Option ℕ
  outageId : String
  status : ResultStatus
  mttrMinutes : ℤ
  thresholdMinutes : ℤ
  amount : ℤ
  paymentType : PaymentType
  rating : Rating
  policyVersion : String
  thresholdSource : String
  reasonCode : Option String
  decisionTrace : Option String
  computeHash : Option String
deriving DecidableEq, Repr

/-- The part of a result that the SLA decision consists of. -/
structure Decision where
  status : ResultStatus
  mttrMinutes : ℤ
  thresholdMinutes : ℤ
  amount : ℤ
  paymentType : PaymentType
  rating : Rating
deriving DecidableEq, Repr

/-- The decision a result states. -/
def SLAResult.decision (r : SLAResult) : Decision :=
  ⟨r.status, r.mttrMinutes, r.thresholdMinutes, r.amount, r.paymentType, r.rating⟩

/-- `_compute_hash`: the digest under which a result is stored for idempotent recomputes. -/
def computeHash (sha256 : String → String) (outageId startedAt resolvedAt policyVersion : String) :
    String :=
  sha256 (outageId ++ "||" ++ startedAt ++ "||" ++ resolvedAt ++ "||" ++ policyVersion)

/-- The bracketed text appended to the decision trace when the requested policy version is not the
live one. An empty requested version asks for none. -/
def versionFallbackNote (requested : String) (live : ℕ) : String :=
  if requested ≠ "" ∧ requested ≠ toString live then
    " [WARNING: requested policy_version=" ++ requested ++ " but no history "
      ++ "exists; computed with live config version=" ++ toString live ++ "]"
  else ""

/-- `performance_ratio`: floor division, and 0 for a zero threshold. -/
def performanceRatio (mttr : ℤ) (threshold : ℕ) : ℤ :=
  if threshold = 0 then 0 else (mttr * 100).fdiv threshold

/-- Multiplier, rating and reason code of a met SLA. -/
def rewardTier (ratio : ℤ) : ℤ × Rating × String :=
  if ratio < 50 then (200, .exceptional, "met_exceptional")
  else if ratio < 75 then (150, .excellent, "met_excellent")
  else (100, .good, "met_good")

/-- The decision for an MTTR under one severity's configuration. -/
def decisionFor (config : SLASeverityConfig) (mttr : ℤ) : Decision :=
  if mttr > config.thresholdMinutes then
    ⟨.violated, mttr, config.thresholdMinutes,
      -((mttr - config.thresholdMinutes) * config.penaltyPerMinute), .penalty, .poor⟩
  else
    let tier := rewardTier (performanceRatio mttr config.thresholdMinutes)
    ⟨.met, mttr, config.thresholdMinutes, (config.rewardBase * tier.1).fdiv 100, .reward, tier.2.1⟩

/-- `reason_code`. -/
def reasonCode (config : SLASeverityConfig) (mttr : ℤ) : String :=
  if mttr > config.thresholdMinutes then "mttr_exceeded"
  else (rewardTier (performanceRatio mttr config.thresholdMinutes)).2.2

/-- `decision_trace`, without the version note. -/
def decisionTrace (config : SLASeverityConfig) (mttr : ℤ) : String :=
  let threshold := toString config.thresholdMinutes
  if mttr > config.thresholdMinutes then
    "MTTR " ++ toString mttr ++ " > threshold " ++ threshold ++ " (overtime "
      ++ toString (mttr - config.thresholdMinutes) ++ " minutes)"
  else
    let ratio := performanceRatio mttr config.thresholdMinutes
    "MTTR " ++ toString mttr ++ " <= threshold " ++ threshold ++ ", performance ratio "
      ++ toString ratio ++ "%, rating " ++ (rewardTier ratio).2.1.value

section

variable (sha256 : String → String) (live : LivePolicy)

/-- `SLACalculator.calculate` in a process whose policy state is `live`. The timestamps are the
ISO strings of the caller, empty when there is none. -/
def calculate (outageId severity : String) (mttr : ℤ) (policyVersion thresholdSource startedAt
    resolvedAt : String) : Outcome SLAResult :=
  match Severity.ofString severity with
  | none => .error (.valueError ("Unknown severity level: " ++ lower severity))
  | some s =>
      let config := (live s).config
      let d := decisionFor config mttr
      .ok {
        id := none
        outageId := outageId
        status := d.status
        mttrMinutes := d.mttrMinutes
        thresholdMinutes := d.thresholdMinutes
        amount := d.amount
        paymentType := d.paymentType
        rating := d.rating
        policyVersion := policyVersion
        thresholdSource := thresholdSource
        reasonCode := some (reasonCode config mttr)
        decisionTrace := some (decisionTrace config mttr
          ++ versionFallbackNote policyVersion (live s).policyVersion)
        computeHash :=
          if startedAt ≠ "" ∧ resolvedAt ≠ "" then
            some (computeHash sha256 outageId startedAt resolvedAt policyVersion)
          else none }

end

/-- The codes of the contract-style response of `SLAContractAdapter.calculate_sla`. -/
inductive ContractCode
  | viol
  | met
  | pen
  | rew
  | top
  | high
  | good
  | poor
deriving DecidableEq, Repr

/-- The response of `SLAContractAdapter.calculate_sla`; its constant `contract_metadata` is left out,
since no modelled function reads it. -/
structure RawContractResult where
  outageId : String
  status : ContractCode
  mttrMinutes : ℤ
  thresholdMinutes : ℤ
  amount : ℤ
  paymentType : ContractCode
  rating : ContractCode
  policyVersion : String
  thresholdSource : String
  computeHash : Option String
deriving DecidableEq, Repr

/-- `rating_code_map`. -/
def ratingCode : Rating → ContractCode
  | .exceptional => .top
  | .excellent => .high
  | .good => .good
  | .poor => .poor

/-- The part of `SLAContractAdapter.calculate_sla` that follows the local calculation. -/
def toContract (r : SLAResult) : RawContractResult where
  outageId := r.outageId
  status := if r.status = .violated then .viol else .met
  mttrMinutes := r.mttrMinutes
  thresholdMinutes := r.thresholdMinutes
  amount := r.amount
  paymentType := if r.paymentType = .penalty then .pen else .rew
  rating := ratingCode r.rating
  policyVersion := r.policyVersion
  thresholdSource := r.thresholdSource
  computeHash := r.computeHash

/-- `SLAContractAdapter.calculate_sla`. -/
def calculateSla (sha256 : String → String) (live : LivePolicy) (outageId severity : String)
    (mttr : ℤ) (policyVersion thresholdSource startedAt resolvedAt : String) :
    Outcome RawContractResult :=
  match calculate sha256 live outageId severity mttr policyVersion thresholdSource startedAt
      resolvedAt with
  | .error e => .error e
  | .ok r => .ok (toContract r)

/-- The rating of a code; any other code is a `KeyError` of the lookup table. -/
def ratingOfCode : ContractCode → Option Rating
  | .top => some .exceptional
  | .high => some .excellent
  | .good => some .good
  | .poor => some .poor
  | _ => none

/-- `translate_contract_result`. The reason code and the decision trace do not travel through the
contract response. -/
def translateContractResult (raw : RawContractResult) : Outcome SLAResult :=
  match ratingOfCode raw.rating with
  | none => .error (.valueError "rating")
  | some rating => .ok {
      id := none
      outageId := raw.outageId
      status := if raw.status = .viol then .violated else .met
      mttrMinutes := raw.mttrMinutes
      thresholdMinutes := raw.thresholdMinutes
      amount := raw.amount
      paymentType := if raw.paymentType = .pen then .penalty else .reward
      rating := rating
      policyVersion := raw.policyVersion
      thresholdSource := raw.thresholdSource
      reasonCode := none
      decisionTrace := none
      computeHash := raw.computeHash }

/-- Translating a contract response back loses only the reason code and the decision trace. -/
theorem translateContractResult_toContract (r : SLAResult) :
    translateContractResult (toContract r)
      = .ok { r with id := none, reasonCode := none, decisionTrace := none } := by
  obtain ⟨id, o, st, m, t, a, p, rt, pv, ts, rc, dt, ch⟩ := r
  cases st <;> cases p <;> cases rt <;> rfl

section

variable {sha256 : String → String} {live : LivePolicy} {outageId severity : String} {mttr : ℤ}
  {policyVersion thresholdSource startedAt resolvedAt : String} {r : SLAResult}

/-- A calculated result is unsaved and explains itself by a reason code and a decision trace. -/
theorem calculate_explained
    (h : calculate sha256 live outageId severity mttr policyVersion thresholdSource startedAt
      resolvedAt = .ok r) :
    r.id = none ∧ r.reasonCode.isSome ∧ r.decisionTrace.isSome := by
  unfold calculate at h
  cases hs : Severity.ofString severity with
  | none => simp [hs] at h
  | some s =>
      simp only [hs, Outcome.ok.injEq] at h
      subst h
      exact ⟨rfl, rfl, rfl⟩

/-- The contract path answers every calculation without its explanation, so never with the local
result. -/
theorem translateContractResult_calculateSla
    (h : calculate sha256 live outageId severity mttr policyVersion thresholdSource startedAt
      resolvedAt = .ok r) :
    ∃ raw, calculateSla sha256 live outageId severity mttr policyVersion thresholdSource startedAt
        resolvedAt = .ok raw
      ∧ translateContractResult raw = .ok { r with reasonCode := none, decisionTrace := none }
      ∧ translateContractResult raw ≠ .ok r := by
  obtain ⟨hid, hcode, -⟩ := calculate_explained h
  have htranslated : translateContractResult (toContract r)
      = .ok { r with reasonCode := none, decisionTrace := none } := by
    rw [translateContractResult_toContract, ← hid]
  refine ⟨toContract r, by rw [calculateSla, h], htranslated, ?_⟩
  intro hsame
  rw [htranslated, Outcome.ok.injEq] at hsame
  have hnone : r.reasonCode = none := by rw [← hsame]
  simp [hnone] at hcode

/-- A critical outage resolved within half of its threshold. -/
theorem translateContractResult_calculateSla_critical :
    ∃ r raw, calculateSla id initialPolicy "out-1" "critical" 5 "1.0" "config" "" "" = .ok raw
      ∧ translateContractResult raw = .ok { r with reasonCode := none, decisionTrace := none }
      ∧ translateContractResult raw ≠ .ok r := by
  have h : calculate id initialPolicy "out-1" "critical" 5 "1.0" "config" "" "" = .ok _ := rfl
  exact ⟨_, translateContractResult_calculateSla h⟩

/-- The reason for a critical outage's reward is lost on the contract path. -/
theorem critical_reason_lost :
    ∃ r raw r', calculate id initialPolicy "out-1" "critical" 5 "1.0" "config" "" "" = .ok r
      ∧ calculateSla id initialPolicy "out-1" "critical" 5 "1.0" "config" "" "" = .ok raw
      ∧ translateContractResult raw = .ok r' ∧ r' ≠ r
      ∧ r.reasonCode = some "met_exceptional" ∧ r'.reasonCode = none := by
  refine ⟨_, _, _, rfl, rfl, rfl, ?_, rfl, rfl⟩
  intro hsame
  cases congrArg SLAResult.reasonCode hsame

end

end ApexChainx.Sla
