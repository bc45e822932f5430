import Mathlib.Data.Rat.Floor
import ApexChainx.Sla.Repository

/-!
# What a resolved outage costs or earns

The calculator decides the reward band of an outage through a floored integer percentage. The bands are
those of the exact fraction of the threshold, and with them the amount only falls while the MTTR grows.
Nothing bounds an amount from the request models on, so the second part says for which inputs a result
and its payment fit their columns.
-/

namespace ApexChainx.Sla

/-! ## The bands as exact fractions -/

/-- The percentage and the rating of a met SLA by the fraction of the threshold that was used. -/
def fractionTier (threshold : ℕ) (mttr : ℤ) : ℕ × Rating :=
  if threshold = 0 ∨ 2 * mttr < threshold then (200, .exceptional)
  else if 4 * mttr < 3 * threshold then (150, .excellent)
  else (100, .good)

/-- The percentage of the base, rounded down. -/
def percentOf (base percent : ℕ) : ℤ := ⌊((base * percent : ℕ) : ℚ) / 100⌋

theorem fdiv_eq_percentOf (base percent : ℕ) :
    ((base : ℤ) * percent).fdiv 100 = percentOf base percent := by
  have h := Rat.floor_intCast_div_natCast ((base : ℤ) * percent) 100
  rw [Int.fdiv_eq_ediv_of_nonneg _ (by omega), percentOf]
  push_cast at h ⊢
  exact h.symm

theorem percentOf_mono {base percent percent' : ℕ} (h : percent ≤ percent') :
    percentOf base percent ≤ percentOf base percent' := by
  apply Int.floor_le_floor
  have hmul : base * percent ≤ base * percent' := Nat.mul_le_mul_left base h
  gcongr

theorem percentOf_nonneg (base percent : ℕ) : 0 ≤ percentOf base percent :=
  Int.floor_nonneg.2 (by positivity)

/-- A floored percentage is below a bound exactly when the fraction is. -/
theorem performanceRatio_lt_iff {threshold : ℕ} (ht : 0 < threshold) (mttr bound : ℤ) :
    performanceRatio mttr threshold < bound ↔ mttr * 100 < bound * threshold := by
  rw [performanceRatio, if_neg (by omega), Int.fdiv_eq_ediv_of_nonneg _ (by omega)]
  exact Int.ediv_lt_iff_lt_mul (by omega)

/-- The bands of the floored percentage are those of the exact fraction. -/
theorem rewardTier_performanceRatio (threshold : ℕ) (mttr : ℤ) :
    (rewardTier (performanceRatio mttr threshold)).1 = (fractionTier threshold mttr).1
      ∧ (rewardTier (performanceRatio mttr threshold)).2.1 = (fractionTier threshold mttr).2 := by
  rcases Nat.eq_zero_or_pos threshold with rfl | ht
  · simp [rewardTier, performanceRatio, fractionTier]
  · have h50 := performanceRatio_lt_iff ht mttr 50
    have h75 := performanceRatio_lt_iff ht mttr 75
    unfold rewardTier fractionTier
    split_ifs <;> first | omega | exact ⟨rfl, rfl⟩

/-- The decision in the exact fractions. -/
theorem decisionFor_eq (config : SLASeverityConfig) (mttr : ℤ) :
    decisionFor config mttr =
      if config.thresholdMinutes < mttr then
        ⟨.violated, mttr, config.thresholdMinutes,
          -((mttr - config.thresholdMinutes) * config.penaltyPerMinute), .penalty, .poor⟩
      else
        ⟨.met, mttr, config.thresholdMinutes,
          percentOf config.rewardBase (fractionTier config.thresholdMinutes mttr).1, .reward,
          (fractionTier config.thresholdMinutes mttr).2⟩ := by
  obtain ⟨hpercent, hrating⟩ := rewardTier_performanceRatio config.thresholdMinutes mttr
  simp only [decisionFor, gt_iff_lt, hpercent, hrating, fdiv_eq_percentOf]

/-- The longer an outage lasted, the lower the percentage. -/
theorem fractionTier_antitone {threshold : ℕ} {mttr mttr' : ℤ} (h : mttr ≤ mttr') :
    (fractionTier threshold mttr').1 ≤ (fractionTier threshold mttr).1 := by
  unfold fractionTier
  split_ifs <;> simp <;> omega

/-- The longer an outage lasted, the lower the amount. -/
theorem decisionFor_amount_antitone (config : SLASeverityConfig) {mttr mttr' : ℤ} (h : mttr ≤ mttr') :
    (decisionFor config mttr').amount ≤ (decisionFor config mttr).amount := by
  rw [decisionFor_eq, decisionFor_eq]
  split_ifs with hlate' hlate
  · -- both are late: the overtime has grown
    have hover : mttr - config.thresholdMinutes ≤ mttr' - config.thresholdMinutes := by omega
    have hmul := mul_le_mul_of_nonneg_right hover (Int.natCast_nonneg config.penaltyPerMinute)
    simpa using hmul
  · -- a penalty is never above a reward
    have hover : 0 ≤ mttr' - config.thresholdMinutes := by omega
    have hpenalty := mul_nonneg hover (Int.natCast_nonneg config.penaltyPerMinute)
    have hreward := percentOf_nonneg config.rewardBase (fractionTier config.thresholdMinutes mttr).1
    simp only
    omega
  · omega
  · exact percentOf_mono (fractionTier_antitone h)

/-- The amounts of a configuration: what a result with the MTTR has to say. -/
structure Pays (config : SLASeverityConfig) (mttr : ℤ) (r : SLAResult) : Prop where
  /-- Only an outage that lasted longer than the threshold violates the SLA. -/
  violated_iff : r.status = .violated ↔ config.thresholdMinutes < mttr
  /-- A violation costs the penalty of every minute over the threshold. -/
  violated : r.status = .violated → r.paymentType = .penalty ∧ r.rating = .poor
    ∧ r.amount = -((mttr - config.thresholdMinutes) * config.penaltyPerMinute)
  /-- A met SLA earns a reward. -/
  met : r.status = .met → r.paymentType = .reward
  /-- The first half of the threshold, or a threshold of zero, doubles the base. -/
  exceptional : r.status = .met → config.thresholdMinutes = 0 ∨ 2 * mttr < config.thresholdMinutes →
    r.rating = .exceptional ∧ r.amount = percentOf config.rewardBase 200
  /-- The third quarter adds one half. -/
  excellent : r.status = .met → 2 * mttr ≥ config.thresholdMinutes →
    4 * mttr < 3 * config.thresholdMinutes →
    r.rating = .excellent ∧ r.amount = percentOf config.rewardBase 150
  /-- The rest earns the base. -/
  good : r.status = .met → config.thresholdMinutes ≠ 0 → 3 * config.thresholdMinutes ≤ 4 * mttr →
    r.rating = .good ∧ r.amount = percentOf config.rewardBase 100

theorem pays_of_decision {config : SLASeverityConfig} {mttr : ℤ} {r : SLAResult}
    (h : r.decision = decisionFor config mttr) : Pays config mttr r := by
  rw [decisionFor_eq] at h
  by_cases hlate : config.thresholdMinutes < mttr
  · simp only [hlate, if_true, SLAResult.decision, Decision.mk.injEq] at h
    obtain ⟨hstatus, -, -, hamount, htype, hrating⟩ := h
    constructor <;> simp_all
  · simp only [hlate, if_false, SLAResult.decision, Decision.mk.injEq] at h
    obtain ⟨hstatus, -, -, hamount, htype, hrating⟩ := h
    constructor
    · simp [hstatus, hlate]
    · simp [hstatus]
    · exact fun _ => htype
    · intro _ hband
      have htier : fractionTier config.thresholdMinutes mttr = (200, .exceptional) := by
        rw [fractionTier, if_pos hband]
      exact ⟨by rw [hrating, htier], by rw [hamount, htier]⟩
    · intro _ hhalf hband
      have htier : fractionTier config.thresholdMinutes mttr = (150, .excellent) := by
        rw [fractionTier, if_neg (by omega), if_pos hband]
      exact ⟨by rw [hrating, htier], by rw [hamount, htier]⟩
    · intro _ hzero hband
      have htier : fractionTier config.thresholdMinutes mttr = (100, .good) := by
        rw [fractionTier, if_neg (by omega), if_neg (by omega)]
      exact ⟨by rw [hrating, htier], by rw [hamount, htier]⟩

section

variable {sha256 : String → String} {live : LivePolicy} {outageId severity : String} {s : Severity}
  {policyVersion thresholdSource startedAt resolvedAt : String}

/-- A known severity is calculated under its configuration. -/
theorem calculate_decision (hs : Severity.ofString severity = some s) (mttr : ℤ) :
    ∃ r, calculate sha256 live outageId severity mttr policyVersion thresholdSource startedAt
        resolvedAt = .ok r
      ∧ r.decision = decisionFor (live s).config mttr := by
  simp only [calculate, hs]
  exact ⟨_, rfl, rfl⟩

/-- What the calculator pays, for any MTTR: the bands in exact fractions of the threshold, and no MTTR pays more than
a shorter one. -/
theorem calculate_pays (hs : Severity.ofString severity = some s) :
    (∀ mttr : ℤ,
      ∃ r, calculate sha256 live outageId severity mttr policyVersion thresholdSource startedAt
          resolvedAt = .ok r
        ∧ Pays (live s).config mttr r)
    ∧ ∀ (mttr mttr' : ℤ) (r r' : SLAResult), mttr ≤ mttr' →
      calculate sha256 live outageId severity mttr policyVersion thresholdSource startedAt
        resolvedAt = .ok r →
      calculate sha256 live outageId severity mttr' policyVersion thresholdSource startedAt
        resolvedAt = .ok r' →
      r'.amount ≤ r.amount := by
  constructor
  · intro mttr
    obtain ⟨r, hr, hdecision⟩ := calculate_decision hs mttr
    exact ⟨r, hr, pays_of_decision hdecision⟩
  · intro mttr mttr' r r' hle hr hr'
    obtain ⟨_, hcalc, hdecision⟩ := calculate_decision hs mttr
    obtain ⟨_, hcalc', hdecision'⟩ := calculate_decision hs mttr'
    obtain rfl := Outcome.ok.inj (hr.symm.trans hcalc)
    obtain rfl := Outcome.ok.inj (hr'.symm.trans hcalc')
    have hamount : r.amount = (decisionFor (live s).config mttr).amount :=
      congrArg Decision.amount hdecision
    have hamount' : r'.amount = (decisionFor (live s).config mttr').amount :=
      congrArg Decision.amount hdecision'
    rw [hamount, hamount']
    exact decisionFor_amount_antitone (live s).config hle

/-- The built-in policy of low severity, at three quarters of its threshold. -/
theorem calculate_pays_low :
    ∃ r, calculate id initialPolicy "out-1" "Low" 90 "1.0" "config" "" "" = .ok r
      ∧ Pays (initialPolicy .low).config 90 r ∧ r.rating = .good ∧ r.amount = 600 := by
  have hs : Severity.ofString "Low" = some .low := by decide
  obtain ⟨r, hr, hpays⟩ := (calculate_pays hs).1 90
  refine ⟨r, hr, hpays, ?_⟩
  obtain rfl := Outcome.ok.inj (hr.symm.trans rfl)
  exact ⟨rfl, rfl⟩

end

/-! ## Results and payments that fit their columns -/

/-- The result can be stored: no negative MTTR, and every number within its column. -/
structure SLAResult.InRange (r : SLAResult) : Prop where
  mttr_nonneg : 0 ≤ r.mttrMinutes
  mttr_fits : fitsInteger r.mttrMinutes
  threshold_fits : fitsInteger r.thresholdMinutes
  amount_fits : fitsBigint r.amount

/-- The inputs whose result can be stored. The request models bound none of them from above, and the
MTTR not from below either. -/
structure FitsColumns (config : SLASeverityConfig) (mttr : ℤ) : Prop where
  nonneg : 0 ≤ mttr
  mttr_le : mttr ≤ 2147483647
  threshold_le : config.thresholdMinutes ≤ 2147483647
  penalty : config.thresholdMinutes < mttr →
    (mttr - config.thresholdMinutes) * config.penaltyPerMinute ≤ 9223372036854775808
  exceptional : mttr ≤ config.thresholdMinutes →
    config.thresholdMinutes = 0 ∨ 2 * mttr < config.thresholdMinutes →
    config.rewardBase ≤ 4611686018427387903
  excellent : mttr ≤ config.thresholdMinutes → config.thresholdMinutes ≤ 2 * mttr →
    4 * mttr < 3 * config.thresholdMinutes → config.rewardBase ≤ 6148914691236517205
  good : mttr ≤ config.thresholdMinutes → config.rewardBase ≤ 9223372036854775807

theorem percentOf_le_iff (base percent : ℕ) (bound : ℤ) :
    percentOf base percent ≤ bound ↔ (base * percent : ℤ) < (bound + 1) * 100 := by
  rw [← fdiv_eq_percentOf, Int.fdiv_eq_ediv_of_nonneg _ (by omega), ← Int.lt_add_one_iff]
  exact Int.ediv_lt_iff_lt_mul (by omega)

theorem fitsBigint_percentOf_iff (base percent : ℕ) :
    fitsBigint (percentOf base percent)
      ↔ (base * percent : ℤ) < 9223372036854775808 * 100 := by
  have hle := percentOf_le_iff base percent 9223372036854775807
  have hnonneg := percentOf_nonneg base percent
  simp only [fitsBigint, Bool.and_eq_true, decide_eq_true_eq]
  omega

/-- A decision fits its columns exactly when the inputs do. -/
theorem inRange_iff_of_decision {config : SLASeverityConfig} {mttr : ℤ} {r : SLAResult}
    (h : r.decision = decisionFor config mttr) : r.InRange ↔ FitsColumns config mttr := by
  rw [decisionFor_eq] at h
  by_cases hlate : config.thresholdMinutes < mttr
  · simp only [hlate, if_true, SLAResult.decision, Decision.mk.injEq] at h
    obtain ⟨-, hmttr, hthreshold, hamount, -, -⟩ := h
    constructor
    · rintro ⟨h0, h1, h2, h3⟩
      simp only [fitsInteger, fitsBigint, Bool.and_eq_true, decide_eq_true_eq, hmttr, hthreshold,
        hamount] at h0 h1 h2 h3
      constructor <;> omega
    · rintro ⟨h0, h1, h2, h3, -, -, -⟩
      have hpenalty := mul_nonneg (a := mttr - config.thresholdMinutes) (by omega)
        (Int.natCast_nonneg config.penaltyPerMinute)
      constructor <;>
        simp only [fitsInteger, fitsBigint, Bool.and_eq_true, decide_eq_true_eq, hmttr, hthreshold,
          hamount] <;> omega
  · simp only [hlate, if_false, SLAResult.decision, Decision.mk.injEq] at h
    obtain ⟨-, hmttr, hthreshold, hamount, -, -⟩ := h
    have hfits := fitsBigint_percentOf_iff config.rewardBase
      (fractionTier config.thresholdMinutes mttr).1
    rw [← hamount] at hfits
    constructor
    · rintro ⟨h0, h1, h2, h3⟩
      have hbase := hfits.1 h3
      simp only [fitsInteger, Bool.and_eq_true, decide_eq_true_eq, hmttr, hthreshold] at h0 h1 h2
      unfold fractionTier at hbase
      constructor <;> split_ifs at hbase <;> push_cast at hbase <;> omega
    · rintro ⟨h0, h1, h2, -, h4, h5, h6⟩
      refine ⟨by rwa [hmttr], ?_, ?_, hfits.2 ?_⟩
      · simp only [fitsInteger, Bool.and_eq_true, decide_eq_true_eq, hmttr]
        omega
      · simp only [fitsInteger, Bool.and_eq_true, decide_eq_true_eq, hthreshold]
        omega
      · unfold fractionTier
        split_ifs <;> push_cast <;> omega

section

variable {sha256 : String → String} {live : LivePolicy} {outageId severity : String} {s : Severity}
  {mttr : ℤ} {policyVersion thresholdSource startedAt resolvedAt : String} {r : SLAResult}

/-- A calculated result fits its columns exactly when the inputs do. Its payment carries the amount
without its sign, and so fails for the one penalty that only fits as a negative number. -/
theorem calculate_inRange_iff (hs : Severity.ofString severity = some s)
    (h : calculate sha256 live outageId severity mttr policyVersion thresholdSource startedAt
      resolvedAt = .ok r) :
    (r.InRange ↔ FitsColumns (live s).config mttr)
    ∧ (r.InRange ∧ fitsBigint |r.amount| ↔
        FitsColumns (live s).config mttr
          ∧ ((live s).config.thresholdMinutes < mttr →
            (mttr - (live s).config.thresholdMinutes) * (live s).config.penaltyPerMinute
              ≠ 9223372036854775808)) := by
  obtain ⟨_, hcalc, hdecision⟩ := calculate_decision hs mttr
  obtain rfl := Outcome.ok.inj (h.symm.trans hcalc)
  have hiff := inRange_iff_of_decision hdecision
  refine ⟨hiff, ?_⟩
  rw [← hiff]
  refine and_congr_right fun hrange => ?_
  have hamount := hrange.amount_fits
  have hpays := congrArg Decision.amount hdecision
  rw [decisionFor_eq] at hpays
  simp only [fitsBigint, Bool.and_eq_true, decide_eq_true_eq, abs_le, le_abs] at hamount ⊢
  by_cases hlate : (live s).config.thresholdMinutes < mttr
  · simp only [hlate, if_true, SLAResult.decision] at hpays
    simp only [hlate, forall_const]
    omega
  · -- a reward has no sign to lose
    simp only [hlate, if_false, SLAResult.decision] at hpays
    have hnonneg := percentOf_nonneg (live s).config.rewardBase
      (fractionTier (live s).config.thresholdMinutes mttr).1
    simp only [hlate, IsEmpty.forall_iff, iff_true]
    omega

/-- The built-in policy at its threshold. -/
theorem calculate_inRange_iff_low :
    ∃ r, calculate id initialPolicy "out-1" "low" 120 "1.0" "config" "" "" = .ok r
      ∧ r.InRange ∧ fitsBigint |r.amount| := by
  have h : calculate id initialPolicy "out-1" "low" 120 "1.0" "config" "" "" = .ok _ := rfl
  refine ⟨_, h, (calculate_inRange_iff (s := .low) (by decide) h).2.2 ⟨?_, by decide⟩⟩
  constructor <;> decide

/-- A resolve request with three thousand million minutes is calculated, and its MTTR does not fit. -/
theorem huge_mttr_out_of_range :
    ∃ r, calculate id initialPolicy "out-1" "critical" 3000000000 "1.0" "config" "" "" = .ok r
      ∧ ¬ r.InRange := by
  refine ⟨_, rfl, fun hrange => ?_⟩
  cases hrange.mttr_fits

end

end ApexChainx.Sla
