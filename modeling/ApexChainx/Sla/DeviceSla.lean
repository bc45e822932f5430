import Mathlib.Algebra.Order.Floor.Ring
import Mathlib.Data.Rat.Floor
import Mathlib.Data.String.Basic
import ApexChainx.Core.DateTime
import ApexChainx.Lib.Fallible
import ApexChainx.Sla.Repository

/-!
# The SLA of a device over a period

`SLAOrchestrator` and `compute_device_sla` (`app/services/sla_service.py`) with the cache of
`app/services/sla_cache.py`. The module uses global names that it neither defines nor imports. Which of
them are bound is a parameter, so that the body is modelled as it is written; `serviceNames` is the
module as it stands.

The code's floating-point numbers are a parameter too, with the operations it applies to them. The
decimal digits of `\d` and `int` are the ones of Unicode and a third parameter.
-/

namespace ApexChainx.Sla

open ApexChainx.Lib

/-- The exceptions of this module. -/
inductive Failure
  /-- `NameError`: a global name the module does not bind. -/
  | nameError (name : String)
  /-- `KeyError`: a threshold the caller did not give. -/
  | keyError (key : String)
  /-- `ValueError`, and with it the `ValidationError` of the models. -/
  | valueError (detail : String)
  /-- `ApexValidationError`. -/
  | validation (detail : String)
  /-- `ApexTransientError`. -/
  | transient (detail : String)
deriving DecidableEq, Repr

/-- `str` of an exception. -/
def Failure.detail : Failure → String
  | nameError name => "name '" ++ name ++ "' is not defined"
  | keyError key => "'" ++ key ++ "'"
  | valueError detail => detail
  | validation detail => detail
  | transient detail => detail

/-- The operations of the code's floating-point numbers. -/
structure FloatOps (F : Type) where
  ofInt : ℤ → F
  /-- True division of two integers. -/
  ratio : ℤ → ℤ → F
  add : F → F → F
  sub : F → F → F
  mul : F → F → F
  div : F → F → F
  lt : F → F → Bool
  le : F → F → Bool
  /-- `sum` of a list. -/
  sum : List F → F
  /-- `round(x, 2)`. -/
  round2 : F → F
  /-- The text of a number in an f-string. -/
  text : F → String

/-- The arithmetic without rounding errors; only `round2` rounds, half to even. -/
def exactOps : FloatOps ℚ where
  ofInt n := n
  ratio a b := a / b
  add a b := a + b
  sub a b := a - b
  mul a b := a * b
  div a b := a / b
  lt a b := a < b
  le a b := a ≤ b
  sum xs := xs.sum
  round2 x :=
    let low := ⌊x * 100⌋
    if x * 100 - low < 1 / 2 ∨ x * 100 - low = 1 / 2 ∧ low % 2 = 0 then low / 100 else (low + 1) / 100
  text x := toString x

/-! ## Names the module has to bind -/

/-- Which of the global names that the code uses are bound. -/
structure ServiceNames where
  getSlaCache : Bool
  ensureAware : Bool
  recordHistogram : Bool
  slaLatencyBuckets : Bool
  logger : Bool
deriving DecidableEq, Repr

/-- The module as it stands: five names are used, and none of them is defined or imported. -/
def serviceNames : ServiceNames := ⟨false, false, false, false, false⟩

/-- Loading a global name. -/
def loadName (bound : Bool) (name : String) : Except Failure Unit :=
  if bound then .ok () else .error (.nameError name)

/-! ## Periods -/

section Periods

variable (digit : Char → Option ℕ)

/-- `int` of four decimal digits. -/
def fourDigits (a b c d : Char) : Option ℕ := do
  return (← digit a) * 1000 + (← digit b) * 100 + (← digit c) * 10 + (← digit d)

/-- `$` of a pattern: the end, or a line feed before it. -/
def atEnd : List Char → Bool
  | [] => true
  | ['\n'] => true
  | _ => false

/-- `0[1-9]|1[0-2]`. -/
def monthOf (a b : Char) : Option ℕ :=
  if a = '0' ∧ '1' ≤ b ∧ b ≤ '9' then some (b.toNat - '0'.toNat)
  else if a = '1' ∧ '0' ≤ b ∧ b ≤ '2' then some (10 + (b.toNat - '0'.toNat))
  else none

/-- `_MONTHLY_RE`. -/
def monthly : List Char → Option (ℕ × ℕ)
  | y₁ :: y₂ :: y₃ :: y₄ :: '-' :: m₁ :: m₂ :: rest => do
      let year ← fourDigits digit y₁ y₂ y₃ y₄
      let month ← monthOf m₁ m₂
      if atEnd rest then some (year, month) else none
  | _ => none

/-- `_QUARTERLY_RE`. -/
def quarterly : List Char → Option (ℕ × ℕ)
  | y₁ :: y₂ :: y₃ :: y₄ :: '-' :: 'Q' :: q :: rest => do
      let year ← fourDigits digit y₁ y₂ y₃ y₄
      if '1' ≤ q ∧ q ≤ '4' ∧ atEnd rest then some (year, q.toNat - '0'.toNat) else none
  | _ => none

/-- `datetime(year, month, 1, tzinfo=UTC)` for a month of the calendar. -/
def firstOfMonth (year month : ℕ) : Except Failure DateTime :=
  if h : DateTime.Valid year month 1 0 0 0 0 then .ok (DateTime.ofValid h)
  else .error (.valueError ("year " ++ toString year ++ " is out of range"))

/-- `SLAOrchestrator.parse_period`. -/
def parsePeriod (period : String) : Except Failure (DateTime × DateTime) :=
  match monthly digit period.toList with
  | some (year, month) => do
      let start ← firstOfMonth year month
      let finish ← if month = 12 then firstOfMonth (year + 1) 1 else firstOfMonth year (month + 1)
      return (start, finish)
  | none =>
      match quarterly digit period.toList with
      | some (year, quarter) => do
          let startMonth := (quarter - 1) * 3 + 1
          let start ← firstOfMonth year startMonth
          let finish ← if startMonth = 10 then firstOfMonth (year + 1) 1
            else firstOfMonth year (startMonth + 3)
          return (start, finish)
      | none => .error (.validation ("Unsupported period format: '" ++ period
          ++ "'. Expected 'YYYY-MM' or 'YYYY-QN'."))

end Periods

/-! ## The tables and the metrics over them -/

/-- The columns of `OutageORM` that the computation reads. -/
structure DeviceOutage where
  id : String
  siteName : String
  siteId : Option String
  severity : String
  detectedAt : DateTime
  resolvedAt : Option DateTime
  createdAt : DateTime
deriving DecidableEq, Repr

/-- The device filter: by outage id, by site id, and by site name only where there is no site id. -/
def DeviceOutage.matches (deviceId : String) (o : DeviceOutage) : Bool :=
  o.id = deviceId || o.siteId = some deviceId || (o.siteId = none && o.siteName = deviceId)

/-- `get_outages_for_device`. -/
def getOutagesForDevice (outages : List DeviceOutage) (deviceId : String) (start finish : DateTime) :
    List DeviceOutage :=
  outages.filter fun o => o.matches deviceId && decide (start.ticks ≤ o.createdAt.ticks)
    && decide (o.createdAt.ticks < finish.ticks)

section Metrics

variable {F : Type} (fl : FloatOps F)

/-- The minutes from detection to resolution, or to the clock's reading for an open outage. -/
def outageMinutes (now : DeviceOutage → ℤ) (o : DeviceOutage) : F :=
  let last := match o.resolvedAt with
    | some resolved => resolved.ticks
    | none => now o
  fl.div (fl.ratio (last - o.detectedAt.ticks) 1000000) (fl.ofInt 60)

/-- `calculate_mttr`. -/
def calculateMttr (names : ServiceNames) (now : DeviceOutage → ℤ) (outages : List DeviceOutage) :
    Except Failure F :=
  if outages.isEmpty then .ok (fl.ofInt 0)
  else do
    loadName names.ensureAware "_ensure_aware"
    let values := outages.map (outageMinutes fl now)
    return fl.round2 (fl.div (fl.sum values) (fl.ofInt values.length))

/-- `calculate_availability`. -/
def calculateAvailability (names : ServiceNames) (now : DeviceOutage → ℤ) (periodDays : ℤ)
    (outages : List DeviceOutage) : Except Failure F :=
  if outages.isEmpty then .ok (fl.ofInt 100)
  else do
    loadName names.ensureAware "_ensure_aware"
    let total := fl.ofInt (periodDays * 24 * 60)
    let downtime := outages.foldl (fun acc o => fl.add acc (outageMinutes fl now o)) (fl.ofInt 0)
    let share := fl.mul (fl.div (fl.sub total downtime) total) (fl.ofInt 100)
    return fl.round2 (if fl.lt (fl.ofInt 0) share then share else fl.ofInt 0)

/-- A `dict[str, float]`. -/
abbrev Thresholds (F : Type) := List (String × F)

/-- The thresholds of a call that gives none. -/
def defaultThresholds : Thresholds F := [("availability", fl.ratio 999 10), ("mttr", fl.ofInt 60)]

/-- `check_sla_violations`. -/
def checkSlaViolations (availability mttr : F) (thresholds : Thresholds F) : Bool :=
  fl.lt availability ((thresholds.lookup "availability").getD (fl.ratio 999 10))
    || fl.lt ((thresholds.lookup "mttr").getD (fl.ofInt 60)) mttr

/-- `thresholds[key]`. -/
def subscript (thresholds : Thresholds F) (key : String) : Except Failure F :=
  match thresholds.lookup key with
  | some value => .ok value
  | none => .error (.keyError key)

/-- The list `violation_reasons`. -/
def violationReasons (availability mttr : F) (thresholds : Thresholds F) :
    Except Failure (List String) := do
  let least ← subscript thresholds "availability"
  let most ← subscript thresholds "mttr"
  let below := if fl.lt availability least then
      ["Availability " ++ fl.text availability ++ "% below threshold " ++ fl.text least ++ "%"]
    else []
  let above := if fl.lt most mttr then
      ["MTTR " ++ fl.text mttr ++ " minutes above threshold " ++ fl.text most ++ " minutes"]
    else []
  return below ++ above

end Metrics

/-- `order_by(outage_id, created_at desc, id desc)`. The database sorts texts by its collation; only
that rows of one outage stay together matters here. -/
def latestFirst (a b : SLAResultRow) : Bool :=
  a.outageId < b.outageId || (a.outageId = b.outageId
    && (b.createdAt < a.createdAt || (a.createdAt = b.createdAt && b.id ≤ a.id)))

/-- The rows that `setdefault` keeps: the first one of every outage. -/
def firstOfEach : List SLAResultRow → List SLAResultRow
  | [] => []
  | r :: rows => r :: (firstOfEach rows).filter fun r' => r'.outageId ≠ r.outageId

/-- `latest_results`, as its values. -/
def latestResults (results : List SLAResultRow) (outageIds : List String) : List SLAResultRow :=
  firstOfEach ((results.filter fun r => outageIds.contains r.outageId).mergeSort latestFirst)

/-! ## The call -/

/-- An entry of `outage_details`. -/
structure OutageDetail where
  id : String
  siteId : Option String
  siteName : String
  startedAt : String
  resolvedAt : Option String
  severity : String
deriving DecidableEq, Repr

def DeviceOutage.detail (o : DeviceOutage) : OutageDetail :=
  ⟨o.id, o.siteId, o.siteName, o.detectedAt.isoformat, o.resolvedAt.map DateTime.isoformat, o.severity⟩

/-- `SLACalculationResult`. -/
structure SLACalculationResult (F : Type) where
  deviceId : String
  period : String
  periodStart : String
  periodEnd : String
  totalOutages : ℕ
  violatedOutages : ℕ
  avgMttrMinutes : F
  availabilityPercentage : F
  isViolated : Bool
  slaThresholds : Thresholds F
  violationReasons : List String
  outageDetails : List OutageDetail

/-- What a call reads besides its arguments: the two tables, the clock at an open outage (read once for
the MTTR and once for the availability), the settings of the cache, and how the audit log answers. -/
structure ServiceEnv where
  outages : List DeviceOutage
  results : List SLAResultRow
  mttrClock : DeviceOutage → ℤ
  availabilityClock : DeviceOutage → ℤ
  cacheConfigured : Bool
  redisUp : Bool
  settlementAudit : Except Failure Unit
  failureAudit : Except Failure Unit

/-- The entries of the SLA cache, by their keys. -/
abbrev SLACache (F : Type) := String → Option (SLACalculationResult F)

/-- `_SAFE_KEY`. -/
def safeKey (key : String) : Bool :=
  key.toList.all (fun c => ('a' ≤ c && c ≤ 'z') || ('A' ≤ c && c ≤ 'Z') || ('0' ≤ c && c ≤ '9')
      || [':', '_', '.', '/', '-'].contains c)
    && 1 ≤ key.length && key.length ≤ 200

/-- The key of a device and a period. -/
def cacheKey (deviceId period : String) : String := deviceId ++ ":" ++ period

section Call

variable {F : Type} (fl : FloatOps F) (digit : Char → Option ℕ) (names : ServiceNames)
  (env : ServiceEnv)

/-- `SLACache.get`, where a cache is configured. -/
def cacheGet (cache : SLACache F) (deviceId period : String) :
    Except Failure (Option (SLACalculationResult F)) :=
  if !env.cacheConfigured then .ok none
  else if !safeKey (cacheKey deviceId period) then .error (.valueError "invalid cache key")
  else .ok (if env.redisUp then cache (cacheKey deviceId period) else none)

/-- `SLACache.set`, where a cache is configured; the key has passed the check of the read. -/
def cacheSet (cache : SLACache F) (deviceId period : String) (r : SLACalculationResult F) :
    SLACache F :=
  if env.cacheConfigured && env.redisUp then Function.update cache (cacheKey deviceId period) (some r)
  else cache

/-- The checks of the model's number fields; the counts are never negative. -/
def validated (r : SLACalculationResult F) : Except Failure (SLACalculationResult F) :=
  if fl.le (fl.ofInt 0) r.avgMttrMinutes && fl.le (fl.ofInt 0) r.availabilityPercentage
      && fl.le r.availabilityPercentage (fl.ofInt 100) then .ok r
  else .error (.valueError "SLACalculationResult")

/-- What follows the construction of a result: the histogram and the two audit events, whose details
hold the result. -/
def report (r : SLACalculationResult F) : Except Failure (SLACalculationResult F) := do
  loadName names.recordHistogram "record_histogram"
  loadName names.slaLatencyBuckets "_SLA_LATENCY_BUCKETS"
  env.settlementAudit
  return r

/-- The result for a period without an outage. -/
def noOutages (deviceId period : String) (start finish : DateTime) (thresholds : Thresholds F) :
    SLACalculationResult F :=
  ⟨deviceId, period, start.isoformat, finish.isoformat, 0, 0, fl.ofInt 0, fl.ofInt 100, false,
    thresholds, [], []⟩

/-- The result for outages in the period. -/
def assess (deviceId period : String) (start finish : DateTime) (thresholds : Thresholds F)
    (outages : List DeviceOutage) : Except Failure (SLACalculationResult F) := do
  let periodDays := (finish.ticks - start.ticks) / 86400000000
  let mttr ← calculateMttr fl names env.mttrClock outages
  let availability ← calculateAvailability fl names env.availabilityClock periodDays outages
  let reasons ← violationReasons fl availability mttr thresholds
  let latest := latestResults env.results (outages.map DeviceOutage.id)
  validated fl ⟨deviceId, period, start.isoformat, finish.isoformat, outages.length,
    latest.countP (·.status = .violated), mttr, availability,
    checkSlaViolations fl availability mttr thresholds, thresholds, reasons,
    outages.map DeviceOutage.detail⟩

/-- The body of the `try` statement. -/
def computeFresh (deviceId period : String) (thresholds : Thresholds F) :
    Except Failure (SLACalculationResult F) := do
  let (start, finish) ← parsePeriod digit period
  let outages := getOutagesForDevice env.outages deviceId start finish
  if outages.isEmpty then
    report names env (← validated fl (noOutages fl deviceId period start finish thresholds))
  else
    report names env (← assess fl names env deviceId period start finish thresholds outages)

/-- The handlers of the `try` statement: a transient error passes, any other is logged, recorded and
raised as one. -/
def handled (deviceId : String) (e : Failure) : Failure :=
  match e with
  | .transient detail => .transient detail
  | e =>
      match (do loadName names.logger "logger"; env.failureAudit : Except Failure Unit) with
      | .error raised => raised
      | .ok () => .transient ("SLA computation failed for device " ++ deviceId ++ ": " ++ e.detail)

/-- `compute_device_sla`: the return value or the exception, and the cache afterwards. -/
def computeDeviceSla (deviceId period : String) (slaThresholds : Option (Thresholds F))
    (cache : SLACache F) : Except Failure (SLACalculationResult F) × SLACache F :=
  match loadName names.getSlaCache "_get_sla_cache" with
  | .error e => (.error e, cache)
  | .ok () =>
      match cacheGet env cache deviceId period with
      | .error e => (.error e, cache)
      | .ok (some cached) => (validated fl cached, cache)
      | .ok none =>
          match computeFresh fl digit names env deviceId period
              (slaThresholds.getD (defaultThresholds fl)) with
          | .error e => (.error (handled names env deviceId e), cache)
          | .ok r => (.ok r, cacheSet env cache deviceId period r)

end Call

/-! ## What a call should answer -/

/-- The outage's latest result, by time and then by id, is a violation. -/
def latestViolated (results : List SLAResultRow) (o : DeviceOutage) : Bool :=
  results.any fun r => r.outageId = o.id && r.status = .violated
    && results.all fun r' => r'.outageId ≠ o.id || r'.createdAt < r.createdAt
      || (r'.createdAt = r.createdAt && r'.id ≤ r.id)

/-- The result says what the tables hold of the device in the period and compares it with the
thresholds of the call. -/
structure Accurate {F : Type} (fl : FloatOps F) (env : ServiceEnv) (deviceId : String)
    (start finish : DateTime) (thresholds : Thresholds F) (r : SLACalculationResult F) : Prop where
  total : r.totalOutages = (getOutagesForDevice env.outages deviceId start finish).length
  violated : r.violatedOutages
    = (getOutagesForDevice env.outages deviceId start finish).countP (latestViolated env.results)
  is_violated : r.isViolated ↔
    (∃ least, thresholds.lookup "availability" = some least ∧ fl.lt r.availabilityPercentage least)
      ∨ ∃ most, thresholds.lookup "mttr" = some most ∧ fl.lt most r.avgMttrMinutes
  reasons : r.violationReasons ≠ [] ↔ r.isViolated

section Answers

variable {F : Type} (fl : FloatOps F) (digit : Char → Option ℕ) (env : ServiceEnv)

/-- No call answers: loading the first of the missing names fails outside of the `try` statement, for
every device, period and map of thresholds, and whatever the cache holds. -/
theorem computeDeviceSla_not_accurate (deviceId period : String) (start finish : DateTime)
    (thresholds : Thresholds F) (cache : SLACache F) :
    computeDeviceSla fl digit serviceNames env deviceId period (some thresholds) cache
        = (.error (.nameError "_get_sla_cache"), cache)
    ∧ ¬ ∃ r cache', computeDeviceSla fl digit serviceNames env deviceId period (some thresholds) cache
          = (.ok r, cache')
        ∧ Accurate fl env deviceId start finish thresholds r := by
  have hraised : computeDeviceSla fl digit serviceNames env deviceId period (some thresholds) cache
      = (.error (.nameError "_get_sla_cache"), cache) := rfl
  refine ⟨hraised, ?_⟩
  rintro ⟨r, cache', hok, -⟩
  rw [hraised, Prod.mk.injEq] at hok
  cases hok.1

end Answers

/-- A device without outages, in March 2025. -/
theorem quiet_device_not_answered :
    ¬ ∃ r cache', computeDeviceSla exactOps (fun c => if c.isDigit then some (c.toNat - 48) else none)
        serviceNames ⟨[], [], fun _ => 0, fun _ => 0, false, false, .ok (), .ok ()⟩ "dev-1" "2025-03"
        (some [("availability", 99), ("mttr", 60)]) (fun _ => none) = (.ok r, cache') := by
  rintro ⟨r, cache', hok⟩
  cases congrArg Prod.fst hok

end ApexChainx.Sla
