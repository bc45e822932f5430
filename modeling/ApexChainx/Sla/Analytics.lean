import Mathlib
import ApexChainx.Lib.GroupBy
import ApexChainx.Outages.Pagination
import ApexChainx.Sla.Repository

/-!
# The SLA aggregations

`SLARepository.aggregate_performance`, `aggregate_dashboard_kpis` and `aggregate_trends`
(`app/repositories/sla_repository.py`), as the rows they select and the sums they take of them. The
performance query joins `outages` always and ranks the results of an outage, the other two join only when
there is a filter and group or sum what is flagged as latest. The fields of the answers are checked by their
models, so an average or a sum that is negative where it must not be raises.

Amounts are exact and times are microseconds. The rounding of `round(float(…), digits)` is a parameter.
-/

namespace ApexChainx.Sla

open ApexChainx.Lib
open ApexChainx.Outages (OutageTable)

/-! ## What is selected -/

/-- The tables the aggregations read. -/
structure AnalyticsTables where
  results : List SLAResultRow
  outages : OutageTable

/-- A filter that is given: `None` and the empty text are none. -/
def given? (filter : Option String) : Option String := filter.filter (· ≠ "")

/-- The conditions on `outages` for the filters that are given. -/
def matchesOutage (severity siteId : Option String) (o : Outages.OutageRow) : Bool :=
  (given? severity).all (o.severity = ·) && (given? siteId).all (o.siteId = some ·)

/-- `JOIN outages ON outages.id = sla_results.outage_id`. -/
def joinOutage (outages : OutageTable) (rows : List SLAResultRow) :
    List (SLAResultRow × Outages.OutageRow) :=
  rows.flatMap fun r => (outages.rows.filter (·.id = r.outageId)).map (r, ·)

/-- `now - timedelta(days=DEFAULT_SCAN_DAYS)`. -/
def scanStart (now : ℤ) : ℤ := now - 365 * 86400000000

/-- The rows `aggregate_dashboard_kpis` and `aggregate_trends` select. -/
def scannedResults (db : AnalyticsTables) (now : ℤ) (severity siteId : Option String) :
    List SLAResultRow :=
  let latest := db.results.filter fun r => r.isLatest && scanStart now ≤ r.createdAt
  if (given? severity).isSome || (given? siteId).isSome then
    ((joinOutage db.outages latest).filter fun x => matchesOutage severity siteId x.2).map Prod.fst
  else latest

/-- `row_number() OVER (PARTITION BY outage_id ORDER BY created_at DESC, id DESC)`. -/
def rowNumber (rows : List (SLAResultRow × Outages.OutageRow)) (r : SLAResultRow) : ℕ :=
  1 + rows.countP fun x => x.1.outageId = r.outageId &&
    (r.createdAt < x.1.createdAt || (x.1.createdAt = r.createdAt && r.id < x.1.id))

/-- The rows `aggregate_performance` selects. -/
def performanceResults (db : AnalyticsTables) (now : ℤ) (startDate endDate : Option ℤ)
    (severity siteId : Option String) : List SLAResultRow :=
  let latestResults := (joinOutage db.outages db.results).filter fun x =>
    (startDate.getD (scanStart now) ≤ x.1.createdAt && endDate.all (x.1.createdAt ≤ ·)) &&
      matchesOutage severity siteId x.2 && x.1.isLatest
  (latestResults.filter fun x => rowNumber latestResults x.1 = 1).map Prod.fst

/-! ## What is summed -/

/-- `case((status == "violated", 1), else_=0)`. -/
def violatedCase (r : SLAResultRow) : ℕ := if r.status = .violated then 1 else 0

/-- `case((payment_type == "reward", amount), else_=0)`. -/
def rewardCase (r : SLAResultRow) : ℤ := if r.paymentType = .reward then r.amount else 0

/-- `case((payment_type == "penalty", abs(amount)), else_=0)`. -/
def penaltyCase (r : SLAResultRow) : ℤ := if r.paymentType = .penalty then r.amount.natAbs else 0

/-- `coalesce(avg(mttr_minutes), 0)`. -/
def averageMttr (rows : List SLAResultRow) : ℚ :=
  if rows.length = 0 then 0 else (sumOf SLAResultRow.mttrMinutes rows : ℤ) / rows.length

/-- `SLAPerformanceAggregation`. -/
structure PerformanceAggregation where
  totalOutages : ℕ
  violationRate : ℚ
  avgMttr : ℚ
  payoutSum : ℚ
deriving DecidableEq, Repr

/-- `SLADashboardKPI`. -/
structure DashboardKPI where
  totalOutages : ℕ
  totalViolations : ℕ
  totalRewards : ℚ
  totalPenalties : ℚ
  netPayout : ℚ
deriving DecidableEq, Repr

/-- `SLATrendPoint`. -/
structure TrendPoint where
  date : String
  totalOutages : ℕ
  violations : ℕ
  rewards : ℚ
  penalties : ℚ
deriving DecidableEq, Repr

/-- The `ValidationError` of a field that is below its bound. -/
def belowZero (model field : String) : ApiError :=
  .valueError (model ++ "." ++ field ++ ": Input should be greater than or equal to 0")

/-- The `ValidationError` of a rate above one. -/
def aboveOne : ApiError :=
  .valueError "SLAPerformanceAggregation.violation_rate: Input should be less than or equal to 1"

/-- The aggregation over the selected rows. -/
def performanceOf (rounded : ℕ → ℚ → ℚ) (rows : List SLAResultRow) : Outcome PerformanceAggregation :=
  let totalOutages := rows.length
  let totalViolations := sumOf violatedCase rows
  let violationRate : ℚ := rounded 4 (if totalOutages = 0 then 0 else totalViolations / totalOutages)
  let avgMttr := rounded 2 (averageMttr rows)
  if violationRate < 0 then .error (belowZero "SLAPerformanceAggregation" "violation_rate")
  else if 1 < violationRate then .error aboveOne
  else if avgMttr < 0 then .error (belowZero "SLAPerformanceAggregation" "avg_mttr")
  else .ok ⟨totalOutages, violationRate, avgMttr, rounded 2 (sumOf SLAResultRow.amount rows : ℤ)⟩

/-- `aggregate_performance`. -/
def aggregatePerformance (rounded : ℕ → ℚ → ℚ) (db : AnalyticsTables) (now : ℤ)
    (startDate endDate : Option ℤ) (severity siteId : Option String) : Outcome PerformanceAggregation :=
  performanceOf rounded (performanceResults db now startDate endDate severity siteId)

/-- The key figures of the selected rows. -/
def kpisOf (rounded : ℕ → ℚ → ℚ) (rows : List SLAResultRow) : Outcome DashboardKPI :=
  let totalRewards := rounded 2 (sumOf rewardCase rows : ℤ)
  let totalPenalties := rounded 2 (sumOf penaltyCase rows : ℤ)
  if totalRewards < 0 then .error (belowZero "SLADashboardKPI" "total_rewards")
  else if totalPenalties < 0 then .error (belowZero "SLADashboardKPI" "total_penalties")
  else .ok ⟨rows.length, sumOf violatedCase rows, totalRewards, totalPenalties,
    rounded 2 (totalRewards - totalPenalties)⟩

/-- `aggregate_dashboard_kpis`. -/
def aggregateDashboardKpis (rounded : ℕ → ℚ → ℚ) (db : AnalyticsTables) (now : ℤ)
    (severity siteId : Option String) : Outcome DashboardKPI :=
  kpisOf rounded (scannedResults db now severity siteId)

/-- `VALID_BUCKETS`. -/
def validBuckets : List String := ["day", "week", "month"]

/-- What the trends leave to the time zone database and to PostgreSQL: the zones that exist,
`date_trunc(bucket, timezone(tz, created_at))`, and the text of its result. -/
structure Calendar where
  zoneKnown : String → Bool
  truncate : String → String → ℤ → ℤ
  text : ℤ → String

/-- The point of one bucket. -/
def trendPoint (rounded : ℕ → ℚ → ℚ) (date : String) (rows : List SLAResultRow) : TrendPoint :=
  ⟨date, rows.length, sumOf violatedCase rows, rounded 2 (sumOf rewardCase rows : ℤ),
    rounded 2 (sumOf penaltyCase rows : ℤ)⟩

/-- The points in order, each checked by its model. -/
def checkPoints : List TrendPoint → Outcome (List TrendPoint)
  | [] => .ok []
  | p :: ps =>
      if p.rewards < 0 then .error (belowZero "SLATrendPoint" "rewards")
      else if p.penalties < 0 then .error (belowZero "SLATrendPoint" "penalties")
      else
        match checkPoints ps with
        | .error e => .error e
        | .ok rest => .ok (p :: rest)

/-- The buckets of the rows, the latest first. -/
def bucketsOf (cal : Calendar) (bucket tz : String) (rows : List SLAResultRow) : List ℤ :=
  keysSorted (fun a b => b ≤ a) (fun r => cal.truncate bucket tz r.createdAt) rows

/-- `aggregate_trends`. -/
def aggregateTrends (rounded : ℕ → ℚ → ℚ) (cal : Calendar) (db : AnalyticsTables) (now : ℤ)
    (limitDays : ℕ) (bucket tz : String) (severity siteId : Option String) :
    Outcome (List TrendPoint) :=
  if bucket ∉ validBuckets then
    .error (.valueError ("Invalid bucket '" ++ bucket ++ "'. Must be one of: day, week, month"))
  else if !cal.zoneKnown tz then .error (.valueError ("Unknown timezone: '" ++ tz ++ "'"))
  else
    let rows := scannedResults db now severity siteId
    let points := ((bucketsOf cal bucket tz rows).take limitDays).map fun k =>
      trendPoint rounded (cal.text k) (group (fun r => cal.truncate bucket tz r.createdAt) rows k)
    match checkPoints points with
    | .error e => .error e
    | .ok checked => .ok checked.reverse

/-! ## The three select the same rows -/

section Rows

variable {db : AnalyticsTables} {now : ℤ} {severity siteId : Option String}

/-- Ids of outages are unique, so a row meets the outage it is joined to at most once. -/
theorem filter_key_eq {outages : List Outages.OutageRow} (hkey : outages.Pairwise (·.id ≠ ·.id))
    (k : String) (B : Outages.OutageRow → Bool) (r : SLAResultRow) :
    ((outages.filter (·.id = k)).filter B).map (fun _ => r) =
      if outages.any (fun o => o.id = k && B o) then [r] else [] := by
  induction outages with
  | nil => rfl
  | cons o outages ih =>
      obtain ⟨hne, hrest⟩ := List.pairwise_cons.mp hkey
      by_cases hk : o.id = k
      · have hnone : outages.any (fun x => x.id = k && B x) = false := by
          rw [List.any_eq_false]
          intro x hx
          have hxk : x.id ≠ k := fun heq => hne x hx (hk.trans heq.symm)
          simp [hxk]
        have htail := ih hrest
        rw [hnone, if_neg Bool.false_ne_true, List.map_eq_nil_iff] at htail
        rw [List.filter_cons_of_pos (by simpa using hk), List.any_cons, hnone]
        by_cases hB : B o = true
        · simp [hB, hk, htail]
        · simp [hB, hk, htail]
      · rw [List.filter_cons_of_neg (by simpa using hk), List.any_cons, ih hrest]
        simp [hk]

/-- A join and a condition on either side, as a condition on the left one. -/
theorem joinOutage_filter (outages : OutageTable) (A : SLAResultRow → Bool)
    (B : Outages.OutageRow → Bool) (rows : List SLAResultRow) :
    ((joinOutage outages rows).filter fun x => A x.1 && B x.2).map Prod.fst =
      rows.filter fun r => A r && outages.rows.any fun o => o.id = r.outageId && B o := by
  induction rows with
  | nil => rfl
  | cons r rows ih =>
      have hhead : (((outages.rows.filter (·.id = r.outageId)).map (r, ·)).filter
            fun x => A x.1 && B x.2).map Prod.fst =
          if A r && outages.rows.any (fun o => o.id = r.outageId && B o) then [r] else [] := by
        rw [List.filter_map, List.map_map]
        by_cases hA : A r = true
        · have hrow := filter_key_eq outages.primaryKey r.outageId B r
          simp only [hA, Bool.true_and, Function.comp_def]
          exact hrow
        · simp [hA, Function.comp_def]
      have hjoin : joinOutage outages (r :: rows) =
          (outages.rows.filter (·.id = r.outageId)).map (r, ·) ++ joinOutage outages rows := rfl
      rw [hjoin, List.filter_append, List.map_append, hhead, ih, List.filter_cons]
      split_ifs <;> rfl

/-- The rows that all three aggregations are about. -/
def currentResults (db : AnalyticsTables) (now : ℤ) (severity siteId : Option String) :
    List SLAResultRow :=
  db.results.filter fun r => (r.isLatest && scanStart now ≤ r.createdAt) &&
    db.outages.rows.any fun o => o.id = r.outageId && matchesOutage severity siteId o

/-- Every latest row is linked to an outage. -/
def Linked (db : AnalyticsTables) : Prop :=
  ∀ r ∈ db.results, r.isLatest = true → ∃ o ∈ db.outages.rows, o.id = r.outageId

instance : Decidable (Linked db) :=
  inferInstanceAs (Decidable (∀ r ∈ db.results, _ → ∃ o ∈ db.outages.rows, _))

theorem matchesOutage_of_none (hseverity : given? severity = none) (hsite : given? siteId = none)
    (o : Outages.OutageRow) : matchesOutage severity siteId o = true := by
  simp [matchesOutage, hseverity, hsite]

theorem scannedResults_eq (hlinked : Linked db) :
    scannedResults db now severity siteId = currentResults db now severity siteId := by
  unfold scannedResults currentResults
  by_cases hfilter : ((given? severity).isSome || (given? siteId).isSome) = true
  · have hjoin := joinOutage_filter db.outages (fun _ => true) (matchesOutage severity siteId)
      (db.results.filter fun r => r.isLatest && scanStart now ≤ r.createdAt)
    simp only [Bool.true_and] at hjoin
    rw [if_pos hfilter, hjoin, List.filter_filter]
    refine List.filter_congr fun r _ => ?_
    rw [Bool.and_comm]
  · rw [if_neg hfilter]
    have hnone : given? severity = none ∧ given? siteId = none := by simpa using hfilter
    refine List.filter_congr fun r hr => ?_
    cases hlatest : r.isLatest with
    | false => simp
    | true =>
        obtain ⟨o, ho, hid⟩ := hlinked r hr hlatest
        have hany : (db.outages.rows.any fun o =>
            o.id = r.outageId && matchesOutage severity siteId o) = true :=
          List.any_eq_true.mpr ⟨o, ho, by simp [hid, matchesOutage_of_none hnone.1 hnone.2]⟩
        rw [hany, Bool.and_true]

/-- Where an outage has one latest row, that row is the first of its partition. -/
theorem performanceResults_eq (hone : ∀ o, db.results.countP (latestOf o) ≤ 1) :
    performanceResults db now none none severity siteId = currentResults db now severity siteId := by
  have hrows := joinOutage_filter db.outages (fun r => scanStart now ≤ r.createdAt && r.isLatest)
    (matchesOutage severity siteId) db.results
  unfold performanceResults
  rw [Option.getD_none]
  simp only [Option.all_none, Bool.and_true]
  rw [List.filter_eq_self.mpr]
  · rw [currentResults]
    calc _ = ((joinOutage db.outages db.results).filter fun x =>
          (decide (scanStart now ≤ x.1.createdAt) && x.1.isLatest) &&
            matchesOutage severity siteId x.2).map Prod.fst := by
          refine congrArg (List.map Prod.fst) (List.filter_congr fun x _ => ?_)
          rw [Bool.and_right_comm]
      _ = _ := hrows
      _ = _ := by
          refine List.filter_congr fun r _ => ?_
          rw [Bool.and_comm (decide _)]
  · intro x hx
    have hselected : ∀ y ∈ (joinOutage db.outages db.results).filter (fun x =>
        (decide (scanStart now ≤ x.1.createdAt) && matchesOutage severity siteId x.2) &&
          x.1.isLatest), y.1 ∈ db.results ∧ y.1.isLatest = true := by
      intro y hy
      obtain ⟨hmem, hcond⟩ := List.mem_filter.mp hy
      obtain ⟨r, hr, hpair⟩ := List.mem_flatMap.mp hmem
      obtain ⟨o, -, rfl⟩ := List.mem_map.mp hpair
      exact ⟨hr, (Bool.and_eq_true _ _ ▸ hcond).2⟩
    obtain ⟨hxmem, hxlatest⟩ := hselected x hx
    simp only [rowNumber, decide_eq_true_eq, Nat.add_eq_left, List.countP_eq_zero]
    intro y hy hbefore
    obtain ⟨hymem, hylatest⟩ := hselected y hy
    simp only [Bool.and_eq_true, decide_eq_true_eq, Bool.or_eq_true] at hbefore
    have heq : y.1 = x.1 := by
      have hpos : db.results.countP (latestOf x.1.outageId) = 1 :=
        Nat.le_antisymm (hone _) (List.countP_pos_iff.mpr ⟨x.1, hxmem, by simp [latestOf, hxlatest]⟩)
      have hfx := find?_eq_of_countP_eq_one hpos hxmem (by simp [latestOf, hxlatest])
      have hfy := find?_eq_of_countP_eq_one hpos hymem (by simp [latestOf, hylatest, hbefore.1])
      exact Option.some.inj (hfy.symm.trans hfx)
    rw [heq] at hbefore
    rcases hbefore.2 with hlt | ⟨-, hlt⟩ <;> omega

end Rows

/-! ## The sums agree -/

/-- No rounding. -/
def exact : ℕ → ℚ → ℚ := fun _ x => x

theorem exact_apply (digits : ℕ) (x : ℚ) : exact digits x = x := rfl

/-- The answers of the three aggregations describe the same rows. -/
structure Agree (performance : PerformanceAggregation) (kpi : DashboardKPI) (points : List TrendPoint) :
    Prop where
  outages : performance.totalOutages = kpi.totalOutages
  payout : performance.payoutSum = kpi.netPayout
  net : kpi.netPayout = kpi.totalRewards - kpi.totalPenalties
  violations : performance.violationRate * performance.totalOutages = kpi.totalViolations
  trendOutages : sumOf TrendPoint.totalOutages points = kpi.totalOutages
  trendViolations : sumOf TrendPoint.violations points = kpi.totalViolations
  trendRewards : sumOf TrendPoint.rewards points = kpi.totalRewards
  trendPenalties : sumOf TrendPoint.penalties points = kpi.totalPenalties

/-- Rewards are not negative and penalties not positive. -/
def Signed (rows : List SLAResultRow) : Prop :=
  ∀ r ∈ rows, (r.paymentType = .reward → 0 ≤ r.amount) ∧ (r.paymentType = .penalty → r.amount ≤ 0)

instance (rows : List SLAResultRow) : Decidable (Signed rows) :=
  inferInstanceAs (Decidable (∀ r ∈ rows, _ ∧ _))

section Sums

variable {rows : List SLAResultRow}

theorem sumOf_nonneg {ρ : Type} {f : ρ → ℤ} {rows : List ρ} (h : ∀ r ∈ rows, 0 ≤ f r) :
    0 ≤ sumOf f rows := by
  refine List.sum_nonneg fun x hx => ?_
  obtain ⟨r, hr, rfl⟩ := List.mem_map.mp hx
  exact h r hr

theorem rewardCase_nonneg (h : Signed rows) {r : SLAResultRow} (hr : r ∈ rows) : 0 ≤ rewardCase r := by
  unfold rewardCase
  split_ifs with hreward
  · exact (h r hr).1 hreward
  · exact le_refl 0

theorem penaltyCase_nonneg (r : SLAResultRow) : 0 ≤ penaltyCase r := by
  unfold penaltyCase
  split_ifs <;> omega

theorem amount_add_penaltyCase (h : Signed rows) {r : SLAResultRow} (hr : r ∈ rows) :
    r.amount + penaltyCase r = rewardCase r := by
  obtain ⟨-, hpenalty⟩ := h r hr
  unfold penaltyCase rewardCase
  cases htype : r.paymentType with
  | reward => simp
  | penalty =>
      have hsign := hpenalty htype
      simp only [if_true, reduceCtorEq, if_false]
      omega

theorem payout_eq (h : Signed rows) :
    sumOf SLAResultRow.amount rows = sumOf rewardCase rows - sumOf penaltyCase rows := by
  have hsum : sumOf (fun r => r.amount + penaltyCase r) rows = sumOf rewardCase rows :=
    sumOf_congr fun r hr => amount_add_penaltyCase h hr
  rw [sumOf_add] at hsum
  exact eq_sub_of_add_eq hsum

theorem violations_le (rows : List SLAResultRow) : sumOf violatedCase rows ≤ rows.length := by
  induction rows with
  | nil => exact Nat.le_refl 0
  | cons r rows ih =>
      have hcase : violatedCase r ≤ 1 := by
        unfold violatedCase
        split_ifs <;> omega
      rw [sumOf_cons, List.length_cons]
      omega

theorem performanceOf_eq (havg : 0 ≤ averageMttr rows) :
    performanceOf exact rows = .ok ⟨rows.length,
      if rows.length = 0 then 0 else (sumOf violatedCase rows : ℕ) / rows.length,
      averageMttr rows, (sumOf SLAResultRow.amount rows : ℤ)⟩ := by
  have hrate : 0 ≤ (if rows.length = 0 then (0 : ℚ) else (sumOf violatedCase rows : ℕ) / rows.length) ∧
      (if rows.length = 0 then (0 : ℚ) else (sumOf violatedCase rows : ℕ) / rows.length) ≤ 1 := by
    split_ifs with hempty
    · exact ⟨le_refl 0, zero_le_one⟩
    · refine ⟨by positivity, ?_⟩
      have hpos : (0 : ℚ) < rows.length := by exact_mod_cast Nat.pos_of_ne_zero hempty
      rw [div_le_one hpos]
      exact_mod_cast violations_le rows
  simp only [performanceOf, exact_apply, not_lt.mpr hrate.1, not_lt.mpr hrate.2, not_lt.mpr havg,
    if_false]

theorem kpisOf_eq (h : Signed rows) :
    kpisOf exact rows = .ok ⟨rows.length, sumOf violatedCase rows, (sumOf rewardCase rows : ℤ),
      (sumOf penaltyCase rows : ℤ), (sumOf rewardCase rows : ℤ) - (sumOf penaltyCase rows : ℤ)⟩ := by
  have hrewards : (0 : ℚ) ≤ (sumOf rewardCase rows : ℤ) := by
    exact_mod_cast sumOf_nonneg fun r hr => rewardCase_nonneg h hr
  have hpenalties : (0 : ℚ) ≤ (sumOf penaltyCase rows : ℤ) := by
    exact_mod_cast sumOf_nonneg fun r _ => penaltyCase_nonneg r
  simp only [kpisOf, exact_apply, not_lt.mpr hrewards, not_lt.mpr hpenalties, if_false]

theorem checkPoints_eq {points : List TrendPoint}
    (h : ∀ p ∈ points, 0 ≤ p.rewards ∧ 0 ≤ p.penalties) : checkPoints points = .ok points := by
  induction points with
  | nil => rfl
  | cons p ps ih =>
      obtain ⟨hrewards, hpenalties⟩ := h p List.mem_cons_self
      rw [checkPoints, if_neg (not_lt.mpr hrewards), if_neg (not_lt.mpr hpenalties),
        ih fun x hx => h x (List.mem_cons_of_mem _ hx)]

/-- A column of the points adds up to the column of the rows. -/
theorem sumOf_points {M : Type} [AddCommMonoid M] (cal : Calendar) (bucket tz : String)
    (f : TrendPoint → M) (g : SLAResultRow → M) (text : ℤ → String)
    (hpoint : ∀ date rows, f (trendPoint exact date rows) = sumOf g rows) :
    sumOf f ((bucketsOf cal bucket tz rows).map fun k => trendPoint exact (text k)
      (group (fun r => cal.truncate bucket tz r.createdAt) rows k)).reverse = sumOf g rows := by
  rw [sumOf_perm f (List.reverse_perm _), sumOf_map]
  simp only [hpoint]
  exact sum_keysSorted _ _ g rows

end Sums

/-- The aggregations, over every filter, bucket and time zone, describe the same rows wherever
`aggregate_performance` answers: where the average MTTR of the rows is not negative. -/
theorem aggregations_agree (db : AnalyticsTables) (now : ℤ) (severity siteId : Option String)
    (cal : Calendar) (bucket tz : String) (limitDays : ℕ)
    (hone : ∀ outageId, db.results.countP (latestOf outageId) ≤ 1) (hlinked : Linked db)
    (hsigned : Signed db.results) (hbucket : bucket ∈ validBuckets) (hzone : cal.zoneKnown tz = true)
    (hlimit : (bucketsOf cal bucket tz (scannedResults db now severity siteId)).length ≤ limitDays)
    (hmttr : 0 ≤ averageMttr (currentResults db now severity siteId)) :
    ∃ performance kpi points,
      aggregatePerformance exact db now none none severity siteId = .ok performance ∧
        aggregateDashboardKpis exact db now severity siteId = .ok kpi ∧
        aggregateTrends exact cal db now limitDays bucket tz severity siteId = .ok points ∧
        Agree performance kpi points := by
  set rows := currentResults db now severity siteId
  have hrowsSigned : Signed rows := fun r hr => hsigned r (List.mem_of_mem_filter hr)
  have hscanned : scannedResults db now severity siteId = rows := scannedResults_eq hlinked
  have hperformance : aggregatePerformance exact db now none none severity siteId =
      performanceOf exact rows := by
    rw [aggregatePerformance, performanceResults_eq hone]
  have hkpis : aggregateDashboardKpis exact db now severity siteId = kpisOf exact rows := by
    rw [aggregateDashboardKpis, hscanned]
  have htrends : aggregateTrends exact cal db now limitDays bucket tz severity siteId =
      .ok ((bucketsOf cal bucket tz rows).map fun k => trendPoint exact (cal.text k)
        (group (fun r => cal.truncate bucket tz r.createdAt) rows k)).reverse := by
    -- the model of a point refuses only negative amounts
    have hpoints : ∀ p ∈ (bucketsOf cal bucket tz rows).map (fun k => trendPoint exact (cal.text k)
        (group (fun r => cal.truncate bucket tz r.createdAt) rows k)),
        0 ≤ p.rewards ∧ 0 ≤ p.penalties := by
      intro p hp
      obtain ⟨k, -, rfl⟩ := List.mem_map.mp hp
      constructor
      · exact Int.cast_nonneg (sumOf_nonneg fun r hr =>
          rewardCase_nonneg hrowsSigned (List.mem_of_mem_filter hr))
      · exact Int.cast_nonneg (sumOf_nonneg fun r _ => penaltyCase_nonneg r)
    rw [hscanned] at hlimit
    rw [aggregateTrends, if_neg (not_not.mpr hbucket), hzone, hscanned]
    simp only [List.take_of_length_le hlimit, checkPoints_eq hpoints]
    rfl
  refine ⟨_, _, _, hperformance.trans (performanceOf_eq hmttr), hkpis.trans (kpisOf_eq hrowsSigned),
    htrends, rfl, ?_, rfl, ?_, ?_, ?_, ?_, ?_⟩
  · simp only [payout_eq hrowsSigned, Int.cast_sub]
  -- without rows the rate is zero, and so are the violations
  · by_cases hempty : rows.length = 0
    · have hnone : sumOf violatedCase rows = 0 := Nat.le_zero.mp (hempty ▸ violations_le rows)
      simp [hempty, hnone]
    · have hne : (rows.length : ℚ) ≠ 0 := by exact_mod_cast hempty
      simp only [if_neg hempty]
      exact div_mul_cancel₀ _ hne
  · rw [sumOf_points cal bucket tz _ (fun _ => 1) cal.text fun _ group => (sumOf_one group).symm,
      sumOf_one]
  · exact sumOf_points cal bucket tz _ violatedCase cal.text fun _ _ => rfl
  · rw [sumOf_points cal bucket tz _ (fun r => (rewardCase r : ℚ)) cal.text fun _ group =>
      (sumOf_hom (Int.castAddHom ℚ) rewardCase group).symm]
    exact sumOf_hom (Int.castAddHom ℚ) rewardCase rows
  · rw [sumOf_points cal bucket tz _ (fun r => (penaltyCase r : ℚ)) cal.text fun _ group =>
      (sumOf_hom (Int.castAddHom ℚ) penaltyCase group).symm]
    exact sumOf_hom (Int.castAddHom ℚ) penaltyCase rows

/-- A result for an outage, flagged as latest. -/
def latestRow (id : ℕ) (outageId : String) (decision : Decision) : SLAResultRow where
  id := id
  outageId := outageId
  status := decision.status
  mttrMinutes := decision.mttrMinutes
  thresholdMinutes := decision.thresholdMinutes
  amount := decision.amount
  paymentType := decision.paymentType
  rating := decision.rating
  policyVersion := "1.0"
  thresholdSource := "config"
  createdAt := 0
  isLatest := true
  reasonCode := none
  decisionTrace := none
  computeHash := none

/-- A reward and a penalty. -/
def sampleTables : AnalyticsTables where
  results := [latestRow 1 "OUT-1" ⟨.met, 10, 60, 200, .reward, .exceptional⟩,
    latestRow 2 "OUT-2" ⟨.violated, 70, 60, -100, .penalty, .poor⟩]
  outages := Outages.criticalOutages

/-- UTC only, in days. -/
def utcCalendar : Calendar where
  zoneKnown tz := tz = "UTC"
  truncate _ _ t := t / 86400000000 * 86400000000
  text t := toString t

theorem countP_latestOf_le_one {rows : List SLAResultRow}
    (h : rows.Pairwise (·.outageId ≠ ·.outageId)) (outageId : String) :
    rows.countP (latestOf outageId) ≤ 1 := by
  induction rows with
  | nil => exact Nat.zero_le 1
  | cons r rows ih =>
      obtain ⟨hne, hrest⟩ := List.pairwise_cons.mp h
      rw [List.countP_cons]
      by_cases hr : latestOf outageId r = true
      · have hid : r.outageId = outageId := by
          simp only [latestOf, Bool.and_eq_true, decide_eq_true_eq] at hr
          exact hr.1
        have hnone : rows.countP (latestOf outageId) = 0 := by
          refine List.countP_eq_zero.mpr fun x hx hlatest => ?_
          simp only [latestOf, Bool.and_eq_true, decide_eq_true_eq] at hlatest
          exact hne x hx (hid.trans hlatest.1.symm)
        rw [hnone, if_pos hr]
      · rw [if_neg hr]
        exact ih hrest

theorem aggregations_agree_sample : ∃ performance kpi points,
    aggregatePerformance exact sampleTables 0 none none (some "critical") none = .ok performance ∧
      aggregateDashboardKpis exact sampleTables 0 (some "critical") none = .ok kpi ∧
      aggregateTrends exact utcCalendar sampleTables 0 7 "day" "UTC" (some "critical") none =
        .ok points ∧
      Agree performance kpi points := by
  have hrows : currentResults sampleTables 0 (some "critical") none = sampleTables.results := by decide
  refine aggregations_agree sampleTables 0 (some "critical") none utcCalendar "day" "UTC" 7
    (countP_latestOf_le_one (by decide)) (by decide) (by decide) (by decide) (by decide) (by decide) ?_
  rw [hrows]
  norm_num [averageMttr, sampleTables, latestRow]

/-- A result whose MTTR was given as less than zero. -/
def negativeTables : AnalyticsTables where
  results := [latestRow 1 "OUT-1" ⟨.met, -5, 60, 200, .reward, .exceptional⟩]
  outages := Outages.criticalOutages

/-- The key figures count the outage, the performance is refused. -/
theorem performance_refused_below_zero :
    (∀ outageId, negativeTables.results.countP (latestOf outageId) ≤ 1) ∧ Linked negativeTables ∧
      Signed negativeTables.results ∧
      (∃ kpi, aggregateDashboardKpis exact negativeTables 0 none none = .ok kpi ∧
        kpi.totalOutages = 1) ∧
      aggregatePerformance exact negativeTables 0 none none none none =
        .error (belowZero "SLAPerformanceAggregation" "avg_mttr") := by
  have hone : ∀ outageId, negativeTables.results.countP (latestOf outageId) ≤ 1 :=
    countP_latestOf_le_one (by decide)
  have hrows : currentResults negativeTables 0 none none = negativeTables.results := by decide
  have hlinked : Linked negativeTables := by decide
  have hsigned : Signed negativeTables.results := by decide
  refine ⟨hone, hlinked, hsigned, ?_, ?_⟩
  · rw [aggregateDashboardKpis, scannedResults_eq hlinked, hrows, kpisOf_eq hsigned]
    exact ⟨_, rfl, rfl⟩
  · rw [aggregatePerformance, performanceResults_eq hone, hrows]
    have hmet : ¬ ResultStatus.met = ResultStatus.violated := by decide
    norm_num [performanceOf, exact_apply, averageMttr, negativeTables, latestRow, violatedCase, hmet]

end ApexChainx.Sla
