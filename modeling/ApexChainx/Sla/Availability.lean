import Mathlib
import ApexChainx.Lib.Coverage
import ApexChainx.Sla.Periods

/-!
# The availability of a device

`SLAOrchestrator.calculate_availability` over the outages that `get_outages_for_device` selects, against
the part of the period that the device's outages cover, and `merge_intervals`
(`app/services/sla/interval_merge.py`), which nothing calls. In exact arithmetic and before the rounding,
with the microseconds of the period as the points that are covered.
-/

namespace ApexChainx.Sla

open ApexChainx.Lib

/-- The exact arithmetic without the rounding of the result. -/
def unrounded : FloatOps ℚ := { exactOps with round2 := id }

/-- The outage's interval, up to the clock's reading where it is open. -/
def DeviceOutage.interval (now : DeviceOutage → ℤ) (o : DeviceOutage) : ℤ × ℤ :=
  (o.detectedAt.ticks, match o.resolvedAt with
    | some resolved => resolved.ticks
    | none => now o)

section

variable (names : ServiceNames) (now : DeviceOutage → ℤ) (outages : List DeviceOutage) (deviceId : String)
  (start finish : DateTime)

/-- The availability that `compute_device_sla` has calculated for a period. -/
def reportedAvailability : Except Failure ℚ :=
  calculateAvailability unrounded names now ((finish.ticks - start.ticks) / 86400000000)
    (getOutagesForDevice outages deviceId start finish)

/-- The intervals of all outages of the device. -/
def deviceIntervals : List (ℤ × ℤ) :=
  (outages.filter (·.matches deviceId)).map (·.interval now)

/-- The availability, with the length of what the intervals cover of the period. -/
def availability (spans : List (ℤ × ℤ)) : ℚ :=
  100 * (1 - (covered start.ticks finish.ticks spans).card / (finish.ticks - start.ticks))

end

/-! ## What availability is -/

section

variable {start finish : DateTime} (spans : List (ℤ × ℤ))

theorem card_period (start finish : DateTime) :
    (Finset.Ico start.ticks finish.ticks).card = (finish.ticks - start.ticks).toNat :=
  Int.card_Ico _ _

variable (hlt : start.ticks < finish.ticks)
include hlt

theorem covered_le_period :
    ((covered start.ticks finish.ticks spans).card : ℚ) ≤ finish.ticks - start.ticks := by
  have hle : (covered start.ticks finish.ticks spans).card ≤ (finish.ticks - start.ticks).toNat := by
    rw [← card_period]
    exact card_covered_le
  have hle' : ((covered start.ticks finish.ticks spans).card : ℤ) ≤ finish.ticks - start.ticks := by omega
  exact_mod_cast hle'

/-- Availability is a percentage. -/
theorem availability_bounds : 0 ≤ availability start finish spans ∧ availability start finish spans ≤ 100 := by
  have hpos : (0 : ℚ) < finish.ticks - start.ticks := by
    rw [sub_pos]
    exact_mod_cast hlt
  have hle := (div_le_one hpos).mpr (covered_le_period spans hlt)
  have hnonneg : (0 : ℚ) ≤ (covered start.ticks finish.ticks spans).card / (finish.ticks - start.ticks) := by
    positivity
  unfold availability
  constructor <;> linarith

end

/-- Availability does not depend on how an outage is cut into overlapping or adjacent pieces. -/
theorem availability_split (start finish : DateTime) {a b m m' : ℤ} (ha : a ≤ m) (hm : m ≤ m') (hb : m' ≤ b)
    (spans : List (ℤ × ℤ)) :
    availability start finish ((a, m') :: (m, b) :: spans) = availability start finish ((a, b) :: spans) := by
  unfold availability
  rw [covered_congr (inSome_split ha hm hb spans)]

/-! ## Merging -/

/-- One round of the loop of `merge_intervals`. -/
def mergeStep (merged : List (ℤ × ℤ)) (interval : ℤ × ℤ) : List (ℤ × ℤ) :=
  match merged.getLast? with
  | none => [interval]
  | some last =>
      if interval.1 ≤ last.2 then merged.dropLast ++ [(last.1, max last.2 interval.2)]
      else merged ++ [interval]

/-- `merge_intervals`. -/
def mergeIntervals (intervals : List (ℤ × ℤ)) : List (ℤ × ℤ) :=
  match intervals.mergeSort (fun i j => i.1 ≤ j.1) with
  | [] => []
  | first :: rest => rest.foldl mergeStep [first]

theorem foldl_mergeStep (done : List (ℤ × ℤ)) (last : ℤ × ℤ) (rest : List (ℤ × ℤ)) :
    rest.foldl mergeStep (done ++ [last]) = done ++ coalesce last rest := by
  induction rest generalizing done last with
  | nil => rfl
  | cons next rest ih =>
      rw [List.foldl_cons, mergeStep, List.getLast?_concat, coalesce]
      dsimp only
      split
      · rw [List.dropLast_concat, ih]
      · rw [ih, List.append_assoc]
        rfl

/-! ## What the code reports -/

section

variable (names : ServiceNames) (now : DeviceOutage → ℤ) (outages : List DeviceOutage) (deviceId : String)
  (start finish : DateTime)

/-- The full durations of the outages that are selected, added up. -/
def totalDuration : ℤ :=
  ((getOutagesForDevice outages deviceId start finish).map fun o =>
    (o.interval now).2 - (o.interval now).1).sum

/-- An outage of the device that the selection by `created_at` leaves out and that covers nothing of the
period. -/
def OutsidePeriod (o : DeviceOutage) : Prop :=
  ¬ (start.ticks ≤ o.createdAt.ticks ∧ o.createdAt.ticks < finish.ticks)
    ∧ min finish.ticks (o.interval now).2 ≤ max start.ticks (o.interval now).1

variable {names now outages deviceId start finish}

theorem getOutagesForDevice_eq_nil_iff : getOutagesForDevice outages deviceId start finish = [] ↔
    ∀ o ∈ outages, o.matches deviceId →
      ¬ (start.ticks ≤ o.createdAt.ticks ∧ o.createdAt.ticks < finish.ticks) := by
  rw [getOutagesForDevice, List.filter_eq_nil_iff]
  simp [and_assoc]

theorem covered_deviceIntervals_eq_empty_iff :
    covered start.ticks finish.ticks (deviceIntervals now outages deviceId) = ∅ ↔
      ∀ o ∈ outages, o.matches deviceId →
        min finish.ticks (o.interval now).2 ≤ max start.ticks (o.interval now).1 := by
  rw [covered_eq_empty_iff, deviceIntervals]
  simp only [List.forall_mem_map, List.mem_filter, and_imp]

theorem reportedAvailability_of_nil (h : getOutagesForDevice outages deviceId start finish = []) :
    reportedAvailability names now outages deviceId start finish = .ok 100 := by
  rw [reportedAvailability, h]
  rfl

/-- The minutes that the loop adds up are the durations. -/
theorem foldl_outageMinutes (now : DeviceOutage → ℤ) (selected : List DeviceOutage) (minutes : ℚ) :
    selected.foldl (fun acc o => acc + outageMinutes unrounded now o) minutes
      = minutes + ((selected.map fun o => (o.interval now).2 - (o.interval now).1).sum : ℤ) / 60000000 := by
  induction selected generalizing minutes with
  | nil => simp
  | cons o selected ih =>
      have hminutes : outageMinutes unrounded now o
          = ((o.interval now).2 - (o.interval now).1 : ℤ) / 60000000 := by
        change (((o.interval now).2 - (o.interval now).1 : ℤ) / ((1000000 : ℤ) : ℚ)) / ((60 : ℤ) : ℚ) = _
        rw [div_div]
        norm_num
      rw [List.foldl_cons, ih, hminutes, List.map_cons, List.sum_cons]
      push_cast
      ring

/-- With the missing name bound, the report for a period of whole days is the period less the durations of
the selected outages, and 0 where they are longer than the period. -/
theorem reportedAvailability_of_bound (hnames : names.ensureAware = true) {days : ℕ} (hpos : 0 < days)
    (hdays : finish.ticks - start.ticks = days * 86400000000) :
    reportedAvailability names now outages deviceId start finish
      = .ok (100 * (1 - (min (finish.ticks - start.ticks)
          (totalDuration now outages deviceId start finish) : ℤ) / ((finish.ticks - start.ticks : ℤ) : ℚ))) := by
  have hdiv : (finish.ticks - start.ticks) / 86400000000 = days := by omega
  have hperiod : (0 : ℚ) < days * 86400000000 := by
    have hcast : (0 : ℚ) < days := by exact_mod_cast hpos
    positivity
  by_cases hempty : getOutagesForDevice outages deviceId start finish = []
  · have htotal : totalDuration now outages deviceId start finish = 0 := by
      rw [totalDuration, hempty]
      rfl
    have hmin : min (finish.ticks - start.ticks) 0 = 0 := by omega
    rw [reportedAvailability_of_nil hempty, htotal, hmin]
    simp
  · have hnonempty : (getOutagesForDevice outages deviceId start finish).isEmpty = false := by
      simpa using hempty
    set total := totalDuration now outages deviceId start finish with htotal
    have hloop := foldl_outageMinutes now (getOutagesForDevice outages deviceId start finish) 0
    rw [← totalDuration, ← htotal, zero_add] at hloop
    have hshare : ((days * 24 * 60 : ℤ) - (total : ℚ) / 60000000) / (days * 24 * 60 : ℤ) * 100
        = 100 * (1 - total / (days * 86400000000)) := by
      push_cast
      field_simp
      ring
    have hreport : reportedAvailability names now outages deviceId start finish
        = .ok (if 0 < 100 * (1 - (total : ℚ) / (days * 86400000000))
            then 100 * (1 - total / (days * 86400000000)) else 0) := by
      rw [← hshare, ← hloop]
      simp only [reportedAvailability, calculateAvailability, hnonempty, hnames, hdiv]
      simp [loadName, unrounded, exactOps]
    rw [hreport, hdays]
    congr 1
    rcases lt_or_ge total (days * 86400000000) with hlt | hge
    · have hlt' : (total : ℚ) < days * 86400000000 := by exact_mod_cast hlt
      have hshort := (div_lt_one hperiod).mpr hlt'
      rw [if_pos (by linarith), min_eq_right hlt.le]
      push_cast
      rfl
    · have hge' : (days * 86400000000 : ℚ) ≤ total := by exact_mod_cast hge
      have hlong := (one_le_div hperiod).mpr hge'
      rw [if_neg (by linarith), min_eq_left hge]
      push_cast
      rw [div_self hperiod.ne', sub_self, mul_zero]

/-- The durations of the selected outages are what the device's outages cover, when they are the outages that
reach into the period, none reaches out of it, and no two have a common instant. -/
theorem totalDuration_of_apart
    (hselected : ∀ o ∈ outages, o.matches deviceId →
      ¬ (start.ticks ≤ o.createdAt.ticks ∧ o.createdAt.ticks < finish.ticks) →
      min finish.ticks (o.interval now).2 ≤ max start.ticks (o.interval now).1)
    (hin : ∀ o ∈ getOutagesForDevice outages deviceId start finish,
      start.ticks ≤ (o.interval now).1 ∧ (o.interval now).1 ≤ (o.interval now).2
        ∧ (o.interval now).2 ≤ finish.ticks)
    (hapart : ((getOutagesForDevice outages deviceId start finish).map (·.interval now)).Pairwise Apart) :
    totalDuration now outages deviceId start finish
      = (covered start.ticks finish.ticks (deviceIntervals now outages deviceId)).card := by
  set selected := getOutagesForDevice outages deviceId start finish with hsel
  -- an outage that is not selected covers nothing
  have hcovered : covered start.ticks finish.ticks (deviceIntervals now outages deviceId)
      = covered start.ticks finish.ticks (selected.map (·.interval now)) := by
    ext t
    rw [mem_covered, mem_covered]
    refine and_congr_right fun ht => ⟨?_, ?_⟩
    · rintro ⟨i, hi, hle, hlt⟩
      obtain ⟨o, ho, rfl⟩ := List.mem_map.mp hi
      obtain ⟨ho, hmatches⟩ := List.mem_filter.mp ho
      refine ⟨o.interval now, List.mem_map_of_mem (List.mem_filter.mpr ⟨ho, ?_⟩), hle, hlt⟩
      by_contra hout
      have hnone := hselected o ho hmatches (by simpa [hmatches] using hout)
      omega
    · rintro ⟨i, hi, hle, hlt⟩
      obtain ⟨o, ho, rfl⟩ := List.mem_map.mp hi
      obtain ⟨ho, hmatches⟩ := List.mem_filter.mp ho
      rw [Bool.and_eq_true, Bool.and_eq_true] at hmatches
      exact ⟨o.interval now, List.mem_map_of_mem (List.mem_filter.mpr ⟨ho, hmatches.1.1⟩), hle, hlt⟩
  rw [hcovered, card_covered_of_apart ?_ hapart, List.map_map, Nat.cast_list_sum, List.map_map,
    totalDuration, ← hsel]
  · refine congrArg List.sum (List.map_congr_left fun o ho => ?_)
    have hlength := (hin o ho).2.1
    simp only [Function.comp_apply, Int.card_Ico]
    omega
  · intro i hi
    obtain ⟨o, ho, rfl⟩ := List.mem_map.mp hi
    exact ⟨(hin o ho).1, (hin o ho).2.2⟩

variable (names) in
/-- The reported availability is the availability exactly when no outage of the device is selected and none
covers anything of the period: for a selected one, the name that reads its times is not bound. With the
name bound, for a period of whole days, it is so exactly when the durations of the selected outages are as
long together, up to the period, as what the device's outages cover of it. -/
theorem reportedAvailability_eq_iff (hlt : start.ticks < finish.ticks) :
    (reportedAvailability serviceNames now outages deviceId start finish
        = .ok (availability start finish (deviceIntervals now outages deviceId)) ↔
      ∀ o ∈ outages, o.matches deviceId → OutsidePeriod now start finish o)
    ∧ (names.ensureAware = true → ∀ days : ℕ, finish.ticks - start.ticks = days * 86400000000 →
      (reportedAvailability names now outages deviceId start finish
          = .ok (availability start finish (deviceIntervals now outages deviceId)) ↔
        min (finish.ticks - start.ticks) (totalDuration now outages deviceId start finish)
          = (covered start.ticks finish.ticks (deviceIntervals now outages deviceId)).card)) := by
  have hpos : (0 : ℚ) < finish.ticks - start.ticks := by
    rw [sub_pos]
    exact_mod_cast hlt
  constructor
  · have houtside : (∀ o ∈ outages, o.matches deviceId → OutsidePeriod now start finish o) ↔
        getOutagesForDevice outages deviceId start finish = []
          ∧ covered start.ticks finish.ticks (deviceIntervals now outages deviceId) = ∅ := by
      rw [getOutagesForDevice_eq_nil_iff, covered_deviceIntervals_eq_empty_iff]
      simp only [OutsidePeriod, imp_and, forall_and]
    rw [houtside]
    by_cases hempty : getOutagesForDevice outages deviceId start finish = []
    · rw [reportedAvailability_of_nil hempty, availability, Except.ok.injEq, and_iff_right hempty,
        ← Finset.card_eq_zero]
      constructor
      · intro h
        have hzero : ((covered start.ticks finish.ticks (deviceIntervals now outages deviceId)).card : ℚ)
            / (finish.ticks - start.ticks) = 0 := by linarith
        rcases div_eq_zero_iff.mp hzero with hcard | hperiod
        · exact_mod_cast hcard
        · exact absurd hperiod hpos.ne'
      · intro h
        rw [h]
        norm_num
    · -- the first selected outage raises
      have hnonempty : (getOutagesForDevice outages deviceId start finish).isEmpty = false := by
        simpa using hempty
      have hraised : reportedAvailability serviceNames now outages deviceId start finish
          = .error (.nameError "_ensure_aware") := by
        rw [reportedAvailability, calculateAvailability, hnonempty]
        rfl
      rw [hraised]
      exact iff_of_false nofun fun h => hempty h.1
  · intro hnames days hdays
    have hdays' : 0 < days := by omega
    rw [reportedAvailability_of_bound hnames hdays' hdays, availability, Except.ok.injEq]
    push_cast
    rw [mul_right_inj' (by norm_num), sub_right_inj, div_left_inj' hpos.ne']
    exact_mod_cast Iff.rfl

end

theorem valid_sampleInstant (day hour : Fin 24) : DateTime.Valid 2025 3 (day + 1) hour 0 0 0 := by
  revert day hour
  decide

/-- An instant of March 2025, by the days since its first one and the hour. -/
def sampleInstant (day hour : Fin 24) : DateTime := .ofValid (valid_sampleInstant day hour)

theorem valid_firstOfApril : DateTime.Valid 2025 4 1 0 0 0 0 := by decide

def firstOfApril : DateTime := .ofValid valid_firstOfApril

/-- Two outages of two hours, the second from the middle of the first. -/
def overlappingOutages : List DeviceOutage :=
  [⟨"out-1", "site", some "dev-1", "critical", sampleInstant 9 0, some (sampleInstant 9 2), sampleInstant 9 0⟩,
   ⟨"out-2", "site", some "dev-1", "critical", sampleInstant 9 1, some (sampleInstant 9 3), sampleInstant 9 1⟩]

/-- Two outages of two hours, on the third and on the 21st. -/
def separateOutages : List DeviceOutage :=
  [⟨"out-1", "site", some "dev-1", "critical", sampleInstant 2 0, some (sampleInstant 2 2), sampleInstant 2 0⟩,
   ⟨"out-2", "site", some "dev-1", "critical", sampleInstant 20 1, some (sampleInstant 20 3), sampleInstant 20 1⟩]

/-- Both outages are outside of the second week. With the missing names bound March is reported as it was, because
they lie in it and are apart. -/
theorem quiet_march_reported :
    reportedAvailability serviceNames (fun _ => 0) separateOutages "dev-1" (sampleInstant 7 0) (sampleInstant 14 0)
        = .ok (availability (sampleInstant 7 0) (sampleInstant 14 0)
          (deviceIntervals (fun _ => 0) separateOutages "dev-1"))
    ∧ reportedAvailability ⟨true, true, true, true, true⟩ (fun _ => 0) separateOutages "dev-1"
          (sampleInstant 0 0) firstOfApril
        = .ok (availability (sampleInstant 0 0) firstOfApril
          (deviceIntervals (fun _ => 0) separateOutages "dev-1")) := by
  constructor
  · refine (reportedAvailability_eq_iff serviceNames (by decide +kernel)).1.mpr ?_
    unfold OutsidePeriod
    decide +kernel
  · refine ((reportedAvailability_eq_iff _ (by decide +kernel)).2 rfl 31 (by decide +kernel)).mpr ?_
    rw [← totalDuration_of_apart (by decide +kernel) (by decide +kernel) (by unfold Apart; decide +kernel)]
    decide +kernel

theorem card_covered_overlapping : (covered (sampleInstant 0 0).ticks firstOfApril.ticks
    (deviceIntervals (fun _ => 0) overlappingOutages "dev-1")).card = 10800000000 := by
  have hspans : deviceIntervals (fun _ => 0) overlappingOutages "dev-1"
      = [((sampleInstant 9 0).ticks, (sampleInstant 9 2).ticks),
        ((sampleInstant 9 1).ticks, (sampleInstant 9 3).ticks)] := by
    decide +kernel
  rw [hspans, ← sum_coalesce (by decide +kernel) (by decide +kernel), coalesce, if_pos (by decide +kernel),
    coalesce, List.map_singleton, List.sum_singleton, Int.card_Ico]
  decide +kernel

/-- The outages of the device raise, and with the missing name bound the hour they share counts twice. -/
theorem overlap_counted_twice :
    ¬ (∀ (outages : List DeviceOutage) (deviceId : String) (start finish : DateTime),
      start.ticks < finish.ticks → reportedAvailability serviceNames (fun _ => 0) outages deviceId start finish
        = .ok (availability start finish (deviceIntervals (fun _ => 0) outages deviceId)))
    ∧ reportedAvailability ⟨true, true, true, true, true⟩ (fun _ => 0) overlappingOutages "dev-1"
          (sampleInstant 0 0) firstOfApril
        ≠ .ok (availability (sampleInstant 0 0) firstOfApril
          (deviceIntervals (fun _ => 0) overlappingOutages "dev-1")) := by
  constructor
  · intro h
    have hraised : reportedAvailability serviceNames (fun _ => 0) overlappingOutages "dev-1" (sampleInstant 0 0)
        firstOfApril = .error (.nameError "_ensure_aware") := by
      rfl
    rw [h _ _ _ _ (by decide +kernel)] at hraised
    cases hraised
  · have hperiod : firstOfApril.ticks - (sampleInstant 0 0).ticks = (31 : ℕ) * 86400000000 := by decide +kernel
    have htotal : totalDuration (fun _ => 0) overlappingOutages "dev-1" (sampleInstant 0 0) firstOfApril
        = 14400000000 := by decide +kernel
    have hperiod' : (firstOfApril.ticks - (sampleInstant 0 0).ticks : ℚ) = 31 * 86400000000 := by
      exact_mod_cast hperiod
    rw [reportedAvailability_of_bound rfl (by decide) hperiod, htotal, hperiod, availability, hperiod',
      card_covered_overlapping, ne_eq, Except.ok.injEq]
    norm_num

end ApexChainx.Sla
