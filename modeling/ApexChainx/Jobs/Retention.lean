import ApexChainx.Core.Timedelta
import ApexChainx.Jobs.Status
import ApexChainx.Lib.BatchDelete
import ApexChainx.Webhooks.Delivery

/-!
# Retention

`app/services/job_cleanup.py`: `cleanup_old_jobs` and `cleanup_old_webhook_deliveries`, as sweeps over tables
that workers and requests write to. Times are in microseconds. `_delete_job_batch` is run again when the
database fails, also after a delete that was committed.
-/

namespace ApexChainx.DateTime

/-- `d - timedelta(days=days)`; `none` for its `OverflowError`. -/
def subDays (d : DateTime) (days : ℤ) : Option DateTime := ofTicks (d.ticks - days * 86400000000)

theorem ticks_subDays {d e : DateTime} {days : ℤ} (h : d.subDays days = some e) :
    e.ticks = d.ticks - days * 86400000000 := ticks_ofTicks h

end ApexChainx.DateTime

namespace ApexChainx.Jobs

open Lib Webhooks

/-! ## Jobs -/

/-- A row of `jobs` with its primary key. -/
structure StoredJob where
  id : ℕ
  job : Job

/-- What one pass of `_delete_jobs_by_status` is for. -/
structure JobPhase where
  status : JobStatus
  cutoff : ℤ
deriving DecidableEq, Repr

/-- `Job.status == status, Job.finished_at < cutoff_date`; a comparison with null selects no row. -/
def JobPhase.selects (p : JobPhase) (row : StoredJob) : Bool :=
  row.job.status = p.status && match row.job.finishedAt with
    | none => false
    | some finishedAt => finishedAt < p.cutoff

/-- The arguments of `cleanup_old_jobs`, and the time it reads. -/
structure JobCleanup where
  now : DateTime
  successfulRetentionDays : Option ℤ
  failedRetentionDays : Option ℤ
  dryRun : Bool
  batchSize : ℕ

/-- `days or default`. -/
def orDefault (days : Option ℤ) (default : ℤ) : ℤ :=
  match days with
  | none => default
  | some days => if days = 0 then default else days

/-- The passes of `cleanup_old_jobs`; revoked jobs are kept as long as successful ones. -/
def jobPhases (cutoffSuccess cutoffFailed : ℤ) : List JobPhase :=
  [⟨.success, cutoffSuccess⟩, ⟨.failure, cutoffFailed⟩, ⟨.revoked, cutoffSuccess⟩]

/-- `cleanup_old_jobs`, up to its first query; `none` for the `OverflowError` of a cutoff. -/
def cleanupOldJobs (c : JobCleanup) : Option (Sweep JobPhase ℕ) :=
  (c.now.subDays (orDefault c.successfulRetentionDays 30)).bind fun cutoffSuccess =>
    (c.now.subDays (orDefault c.failedRetentionDays 90)).map fun cutoffFailed =>
      .new (jobPhases cutoffSuccess.ticks cutoffFailed.ticks) true c.dryRun c.batchSize

/-- The commits that write to a job: a worker's callbacks, polls, `cancel_job` and `retry_job`, each from the
row as it was loaded. -/
inductive JobWrite
  | callback (now : ℤ) (seen : Job) (callback : Callback)
  | poll (seen : Job) (status : JobStatus)
  | cancel (seen : Job)
  | retry (now : ℤ) (seen : Job) (task : ℕ)

def JobWrite.update : JobWrite → Job → Job
  | .callback now seen event, row => event.update now seen row
  | .poll seen status, row => { row with status := writeColumn seen.status status row.status }
  | .cancel seen, row => { row with status := writeColumn seen.status .revoked row.status }
  | .retry now seen task, row =>
      { row.retried now seen task with
        celeryTaskId := writeColumn seen.celeryTaskId task row.celeryTaskId }

/-- The table of jobs. -/
def jobRetention : Retention StoredJob ℕ JobPhase JobCleanup JobWrite where
  key := StoredJob.id
  eligible := JobPhase.selects
  write w row := { row with job := w.update row.job }
  call := cleanupOldJobs
  key_write _ _ := rfl
  call_fresh c sw ids h := by
    obtain ⟨_, -, h⟩ := Option.bind_eq_some_iff.mp h
    obtain ⟨_, -, rfl⟩ := Option.map_eq_some_iff.mp h
    exact Sweep.firstStage_ne_deleting true ids

/-! ## Deliveries -/

/-- A row of `webhook_deliveries`, as far as its retention is concerned. -/
structure StoredDelivery where
  id : ℕ
  status : DeliveryStatus
  createdAt : ℤ
deriving DecidableEq, Repr

/-- What one pass of `cleanup_old_webhook_deliveries` is for. -/
structure DeliveryPhase where
  statuses : List DeliveryStatus
  cutoff : ℤ
deriving DecidableEq, Repr

/-- `WebhookDelivery.status.in_(statuses), WebhookDelivery.created_at < cutoff_date`. -/
def DeliveryPhase.selects (p : DeliveryPhase) (row : StoredDelivery) : Bool :=
  row.status ∈ p.statuses && row.createdAt < p.cutoff

/-- The arguments of `cleanup_old_webhook_deliveries`, and the time it reads. -/
structure DeliveryCleanup where
  now : DateTime
  retentionDays : ℤ
  deadLetterRetentionDays : ℤ
  batchSize : ℕ

def deliveryPhases (cutoff deadLetterCutoff : ℤ) : List DeliveryPhase :=
  [⟨[.success, .failed], cutoff⟩, ⟨[.deadLetter], deadLetterCutoff⟩]

/-- `cleanup_old_webhook_deliveries`, up to its first query. -/
def cleanupOldWebhookDeliveries (c : DeliveryCleanup) : Option (Sweep DeliveryPhase ℕ) :=
  (c.now.subDays c.retentionDays).bind fun cutoff =>
    (c.now.subDays c.deadLetterRetentionDays).map fun deadLetterCutoff =>
      .new (deliveryPhases cutoff.ticks deadLetterCutoff.ticks) false false c.batchSize

/-- The table of deliveries. A write sets the status, as `replay_dead_letter_delivery` sets it to pending;
`created_at` is never written. -/
def deliveryRetention : Retention StoredDelivery ℕ DeliveryPhase DeliveryCleanup DeliveryStatus where
  key := StoredDelivery.id
  eligible := DeliveryPhase.selects
  write status row := { row with status }
  call := cleanupOldWebhookDeliveries
  key_write _ _ := rfl
  call_fresh c sw ids h := by
    obtain ⟨_, -, h⟩ := Option.bind_eq_some_iff.mp h
    obtain ⟨_, -, rfl⟩ := Option.map_eq_some_iff.mp h
    exact Sweep.firstStage_ne_deleting false ids

/-! ## Exactly the expired rows -/

/-- The first microsecond that is kept, `days` days before `now`. -/
def cutoff (now : DateTime) (days : ℤ) : ℤ := now.ticks - days * 86400000000

/-- The passes with the retention that was asked for: none asked for is the default. -/
def JobCleanup.asked (c : JobCleanup) : List JobPhase :=
  jobPhases (cutoff c.now (c.successfulRetentionDays.getD 30)) (cutoff c.now (c.failedRetentionDays.getD 90))

/-- A cleanup that nobody disturbs ends with exactly the expired jobs deleted, and reports their numbers; so
does the dry run before it, which deletes none. -/
def JobsCleaned (rows : List StoredJob) (earlier : DateTime) (c : JobCleanup) : Prop :=
  ∃ dry sw, cleanupOldJobs { c with now := earlier, dryRun := true } = some dry ∧
    cleanupOldJobs { c with dryRun := false } = some sw ∧
    SweepEnds StoredJob.id JobPhase.selects rows dry rows (c.asked.map fun p => rows.countP p.selects) ∧
    SweepEnds StoredJob.id JobPhase.selects rows sw (rows.filter (untouched JobPhase.selects c.asked))
      (c.asked.map fun p => rows.countP p.selects)

/-- The expired deliveries, deleted by a cleanup that nobody disturbs. -/
def DeliveriesCleaned (rows : List StoredDelivery) (c : DeliveryCleanup) : Prop :=
  let asked := deliveryPhases (cutoff c.now c.retentionDays) (cutoff c.now c.deadLetterRetentionDays)
  ∃ sw, cleanupOldWebhookDeliveries c = some sw ∧
    SweepEnds StoredDelivery.id DeliveryPhase.selects rows sw
      (rows.filter (untouched DeliveryPhase.selects asked))
      (asked.map fun p => rows.countP p.selects)

/-- No job of the status finished from `start` on and before `stop`. -/
def NoneFinished (rows : List StoredJob) (status : JobStatus) (start stop : ℤ) : Prop :=
  ∀ row ∈ rows, row.job.status = status → ∀ t ∈ row.job.finishedAt, start ≤ t → stop ≤ t

/-- The cutoffs are dates, and no job finished between the cutoff of the dry run and the one asked for. With
the retention asked for this is the time between the two runs; a retention of 0 is taken for the default, and
the cutoff asked for is then the time of the cleanup. -/
structure JobsCleanable (rows : List StoredJob) (earlier : DateTime) (c : JobCleanup) : Prop where
  dates : ∀ now ∈ [earlier, c.now],
    (now.subDays (orDefault c.successfulRetentionDays 30)).isSome = true ∧
      (now.subDays (orDefault c.failedRetentionDays 90)).isSome = true
  successful : ∀ status ∈ [JobStatus.success, .revoked],
    NoneFinished rows status (cutoff earlier (orDefault c.successfulRetentionDays 30))
      (cutoff c.now (c.successfulRetentionDays.getD 30))
  failed : NoneFinished rows .failure (cutoff earlier (orDefault c.failedRetentionDays 90))
    (cutoff c.now (c.failedRetentionDays.getD 90))

section

variable {rows : List StoredJob} {earlier : DateTime} {c : JobCleanup}

theorem selects_iff {p : JobPhase} {row : StoredJob} :
    p.selects row = true ↔ row.job.status = p.status ∧ ∃ t ∈ row.job.finishedAt, t < p.cutoff := by
  unfold JobPhase.selects
  rw [Bool.and_eq_true, decide_eq_true_eq]
  cases row.job.finishedAt with
  | none => simp
  | some t => simp

/-- A later cutoff selects the same jobs when none finished in between. -/
theorem selects_eq_of_noneFinished {status : JobStatus} {start stop : ℤ} (hle : start ≤ stop)
    (h : NoneFinished rows status start stop) {row : StoredJob} (hrow : row ∈ rows) :
    JobPhase.selects ⟨status, start⟩ row = JobPhase.selects ⟨status, stop⟩ row := by
  rw [Bool.eq_iff_iff, selects_iff, selects_iff]
  refine and_congr_right fun hstatus => exists_congr fun t => and_congr_right fun ht => ?_
  have hgap := h row hrow hstatus t ht
  simp only
  omega

/-- The numbers of jobs that two cutoffs select are equal exactly when no job finished in between. -/
theorem countP_selects_eq_iff {status : JobStatus} {start stop : ℤ} (hle : start ≤ stop) :
    rows.countP (JobPhase.selects ⟨status, start⟩) = rows.countP (JobPhase.selects ⟨status, stop⟩) ↔
      NoneFinished rows status start stop := by
  constructor
  · intro hcount row hrow hstatus t ht hstart
    by_contra hstop
    refine Nat.ne_of_lt ?_ hcount
    -- the job is one that only the later cutoff selects
    have hmono : ∀ r, JobPhase.selects ⟨status, start⟩ r = true → JobPhase.selects ⟨status, stop⟩ r = true := by
      intro r hr
      obtain ⟨hr, t', ht', hlt⟩ := selects_iff.mp hr
      exact selects_iff.mpr ⟨hr, t', ht', by simp only at hlt ⊢; omega⟩
    have hlater : JobPhase.selects ⟨status, stop⟩ row = true := selects_iff.mpr ⟨hstatus, t, ht, by simp only; omega⟩
    have hearlier : ¬ JobPhase.selects ⟨status, start⟩ row = true := by
      intro hselects
      obtain ⟨-, t', ht', hlt⟩ := selects_iff.mp hselects
      obtain rfl : t' = t := Option.some.inj (ht'.symm.trans ht)
      simp only at hlt
      omega
    obtain ⟨before, after, rfl⟩ := List.append_of_mem hrow
    have hbefore := List.countP_mono_left (l := before) fun r _ => hmono r
    have hafter := List.countP_mono_left (l := after) fun r _ => hmono r
    simp only [List.countP_append, List.countP_cons, hlater, hearlier]
    simp only [if_true, Bool.false_eq_true, if_false]
    omega
  · intro h
    refine List.countP_congr ?_
    intro row hrow
    rw [selects_eq_of_noneFinished hle h hrow]

theorem cleanupOldJobs_eq_some_iff {sw : Sweep JobPhase ℕ} :
    cleanupOldJobs c = some sw ↔
      (c.now.subDays (orDefault c.successfulRetentionDays 30)).isSome = true ∧
        (c.now.subDays (orDefault c.failedRetentionDays 90)).isSome = true ∧
        sw = .new (jobPhases (cutoff c.now (orDefault c.successfulRetentionDays 30))
          (cutoff c.now (orDefault c.failedRetentionDays 90))) true c.dryRun c.batchSize := by
  unfold cleanupOldJobs
  cases hsuccess : c.now.subDays (orDefault c.successfulRetentionDays 30) with
  | none => simp
  | some cutoffSuccess =>
      cases hfailed : c.now.subDays (orDefault c.failedRetentionDays 90) with
      | none => simp
      | some cutoffFailed =>
          rw [Option.bind_some, Option.map_some, DateTime.ticks_subDays hsuccess,
            DateTime.ticks_subDays hfailed]
          simp only [Option.some.injEq, Option.isSome_some, true_and]
          exact eq_comm

theorem disjoint_jobPhases (cutoffSuccess cutoffFailed : ℤ) :
    DisjointPhases JobPhase.selects (jobPhases cutoffSuccess cutoffFailed) := by
  have hother : ∀ p q : JobPhase, p.status ≠ q.status → ∀ r, p.selects r = true → q.selects r = false := by
    intro p q hne r hp
    rw [Bool.eq_false_iff]
    intro hq
    -- a row has one status
    exact hne ((selects_iff.mp hp).1.symm.trans (selects_iff.mp hq).1)
  simp only [DisjointPhases, jobPhases, List.pairwise_cons]
  refine ⟨?_, ?_, by simp, List.Pairwise.nil⟩
  · intro q hq
    apply hother
    rcases List.mem_cons.mp hq with rfl | hq
    · simp
    · obtain rfl := List.mem_singleton.mp hq
      simp
  · intro q hq
    obtain rfl := List.mem_singleton.mp hq
    exact hother _ _ (by simp)

/-- The cutoff of an earlier run is before the one asked for later. -/
theorem cutoff_orDefault_le (hearlier : earlier.ticks ≤ c.now.ticks) (days : Option ℤ) {default : ℤ}
    (hdefault : 0 ≤ default) : cutoff earlier (orDefault days default) ≤ cutoff c.now (days.getD default) := by
  -- a retention of 0 becomes the longer default
  have hle : days.getD default ≤ orDefault days default := by
    unfold orDefault
    cases days with
    | none => exact le_refl _
    | some days =>
        simp only [Option.getD_some]
        split <;> omega
  simp only [cutoff]
  omega

theorem NoneFinished.mono {status : JobStatus} {start start' stop : ℤ} (hle : start ≤ start')
    (h : NoneFinished rows status start stop) : NoneFinished rows status start' stop :=
  fun row hrow hstatus t ht hstart => h row hrow hstatus t ht (hle.trans hstart)

/-- Up to jobs that finished in between, two pairs of cutoffs are for the same jobs. -/
theorem map_countP_eq_iff {success success' failed failed' : ℤ} (hsuccess : success ≤ success')
    (hfailed : failed ≤ failed') :
    ((jobPhases success failed).map fun p => rows.countP p.selects) =
        ((jobPhases success' failed').map fun p => rows.countP p.selects) ↔
      (∀ status ∈ [JobStatus.success, .revoked], NoneFinished rows status success success') ∧
        NoneFinished rows .failure failed failed' := by
  simp only [jobPhases, List.map_cons, List.map_nil, List.cons.injEq, and_true,
    countP_selects_eq_iff hsuccess, countP_selects_eq_iff hfailed, List.forall_mem_cons]
  constructor
  · rintro ⟨hfirst, hsecond, hthird⟩
    exact ⟨⟨hfirst, hthird, by simp⟩, hsecond⟩
  · rintro ⟨⟨hfirst, hthird, -⟩, hsecond⟩
    exact ⟨hfirst, hsecond, hthird⟩

theorem filter_untouched_eq {success success' failed failed' : ℤ} (hsuccess : success ≤ success')
    (hfailed : failed ≤ failed')
    (h : ∀ status ∈ [JobStatus.success, .revoked], NoneFinished rows status success success')
    (h' : NoneFinished rows .failure failed failed') :
    rows.filter (untouched JobPhase.selects (jobPhases success failed)) =
      rows.filter (untouched JobPhase.selects (jobPhases success' failed')) := by
  refine List.filter_congr ?_
  intro row hrow
  simp only [untouched, jobPhases, List.any_cons, List.any_nil,
    selects_eq_of_noneFinished hsuccess (h .success (by simp)) hrow,
    selects_eq_of_noneFinished hsuccess (h .revoked (by simp)) hrow,
    selects_eq_of_noneFinished hfailed h' hrow]

/-- Exactly when a cleanup with a dry run before it does what was asked for. -/
theorem jobsCleaned_iff (hnodup : (rows.map StoredJob.id).Nodup) (hbatch : 1 ≤ c.batchSize)
    (hearlier : earlier.ticks ≤ c.now.ticks) : JobsCleaned rows earlier c ↔ JobsCleanable rows earlier c := by
  have hsuccess := cutoff_orDefault_le hearlier c.successfulRetentionDays (show (0 : ℤ) ≤ 30 by decide)
  have hfailed := cutoff_orDefault_le hearlier c.failedRetentionDays (show (0 : ℤ) ≤ 90 by decide)
  constructor
  · rintro ⟨dry, sw, hdry, hsw, hdryEnds, -⟩
    obtain ⟨hdate, hdate', rfl⟩ := cleanupOldJobs_eq_some_iff.mp hdry
    obtain ⟨hlater, hlater', -⟩ := cleanupOldJobs_eq_some_iff.mp hsw
    -- what the dry run reports is what was asked for and what it counts
    obtain ⟨s, ⟨-, hreported⟩, -, hcounted⟩ := hdryEnds.exists_both (dryRun_ends _ _ _ _ _)
    obtain ⟨hsuccessful, hfailing⟩ := (map_countP_eq_iff hsuccess hfailed).mp (hcounted.symm.trans hreported)
    exact ⟨by simp [hdate, hdate', hlater, hlater'], hsuccessful, hfailing⟩
  · rintro ⟨hdates, hsuccessful, hfailing⟩
    simp only [List.forall_mem_cons] at hdates
    obtain ⟨⟨hdate, hdate'⟩, ⟨hlater, hlater'⟩, -⟩ := hdates
    refine ⟨_, _, cleanupOldJobs_eq_some_iff.mpr ⟨hdate, hdate', rfl⟩,
      cleanupOldJobs_eq_some_iff.mpr ⟨hlater, hlater', rfl⟩, ?_, ?_⟩
    · have hcounts := (map_countP_eq_iff hsuccess hfailed).mpr ⟨hsuccessful, hfailing⟩
      simp only [JobCleanup.asked, ← hcounts]
      exact dryRun_ends _ _ _ _ _
    · -- the cutoffs of the cleanup lie between those of the dry run and those asked for
      have hle : ∀ days, cutoff earlier days ≤ cutoff c.now days := by
        intro days
        simp only [cutoff]
        omega
      have hsuccess' := cutoff_orDefault_le (le_refl c.now.ticks) c.successfulRetentionDays
        (show (0 : ℤ) ≤ 30 by decide)
      have hfailed' := cutoff_orDefault_le (le_refl c.now.ticks) c.failedRetentionDays
        (show (0 : ℤ) ≤ 90 by decide)
      have hsuccessful' := fun status hstatus => (hsuccessful status hstatus).mono
        (hle (orDefault c.successfulRetentionDays 30))
      have hfailing' := hfailing.mono (hle (orDefault c.failedRetentionDays 90))
      have hcounts := (map_countP_eq_iff hsuccess' hfailed').mpr ⟨hsuccessful', hfailing'⟩
      have hrows := filter_untouched_eq hsuccess' hfailed' hsuccessful' hfailing'
      simp only [JobCleanup.asked, ← hcounts, ← hrows]
      exact sweep_ends hnodup (disjoint_jobPhases _ _) true hbatch

end

theorem cleanupOldWebhookDeliveries_eq_some_iff {c : DeliveryCleanup} {sw : Sweep DeliveryPhase ℕ} :
    cleanupOldWebhookDeliveries c = some sw ↔
      (c.now.subDays c.retentionDays).isSome = true ∧
        (c.now.subDays c.deadLetterRetentionDays).isSome = true ∧
        sw = .new (deliveryPhases (cutoff c.now c.retentionDays) (cutoff c.now c.deadLetterRetentionDays))
          false false c.batchSize := by
  unfold cleanupOldWebhookDeliveries
  cases hcutoff : c.now.subDays c.retentionDays with
  | none => simp
  | some first =>
      cases hdead : c.now.subDays c.deadLetterRetentionDays with
      | none => simp
      | some second =>
          rw [Option.bind_some, Option.map_some, DateTime.ticks_subDays hcutoff, DateTime.ticks_subDays hdead]
          simp only [Option.some.injEq, Option.isSome_some, true_and]
          exact eq_comm

theorem disjoint_deliveryPhases (first second : ℤ) :
    DisjointPhases DeliveryPhase.selects (deliveryPhases first second) := by
  simp only [DisjointPhases, deliveryPhases, List.pairwise_cons, List.mem_singleton]
  refine ⟨?_, by simp, List.Pairwise.nil⟩
  rintro q rfl row hrow
  simp only [DeliveryPhase.selects, Bool.and_eq_true, decide_eq_true_eq, Bool.and_eq_false_iff,
    decide_eq_false_iff_not] at hrow ⊢
  left
  intro hdead
  rw [List.mem_singleton.mp hdead] at hrow
  simp at hrow

/-- A cleanup of deliveries does what was asked for exactly when the cutoffs are dates. -/
theorem deliveriesCleaned_iff {rows : List StoredDelivery} {c : DeliveryCleanup}
    (hnodup : (rows.map StoredDelivery.id).Nodup) (hbatch : 1 ≤ c.batchSize) :
    DeliveriesCleaned rows c ↔ (c.now.subDays c.retentionDays).isSome = true ∧
      (c.now.subDays c.deadLetterRetentionDays).isSome = true := by
  constructor
  · rintro ⟨sw, hsw, -⟩
    obtain ⟨hcutoff, hdead, -⟩ := cleanupOldWebhookDeliveries_eq_some_iff.mp hsw
    exact ⟨hcutoff, hdead⟩
  · rintro ⟨hcutoff, hdead⟩
    exact ⟨_, cleanupOldWebhookDeliveries_eq_some_iff.mpr ⟨hcutoff, hdead, rfl⟩,
      sweep_ends hnodup (disjoint_deliveryPhases _ _) false hbatch⟩

/-! ## Retention -/

/-- Beside writers that leave what a cleanup has selected as it was selected for, only expired rows are
deleted; alone, a cleanup deletes the expired rows and a dry run before it counts them, exactly when the
cutoffs are dates and the cutoffs of both select the jobs that were asked for. -/
theorem retention_iff (jobs : List StoredJob) (deliveries : List StoredDelivery) (earlier : DateTime)
    (c : JobCleanup) (d : DeliveryCleanup) (hjobs : (jobs.map StoredJob.id).Nodup)
    (hdeliveries : (deliveries.map StoredDelivery.id).Nodup) (hc : 1 ≤ c.batchSize) (hd : 1 ≤ d.batchSize)
    (hearlier : earlier.ticks ≤ c.now.ticks) :
    (∀ as, Guarded jobRetention.step jobRetention.Spares (jobRetention.init jobs) as →
      Guarded jobRetention.step jobRetention.DeletesEligible (jobRetention.init jobs) as) ∧
    (∀ as, Guarded deliveryRetention.step deliveryRetention.Spares (deliveryRetention.init deliveries) as →
      Guarded deliveryRetention.step deliveryRetention.DeletesEligible (deliveryRetention.init deliveries) as) ∧
    (JobsCleaned jobs earlier c ↔ JobsCleanable jobs earlier c) ∧
    (DeliveriesCleaned deliveries d ↔ (d.now.subDays d.retentionDays).isSome = true ∧
      (d.now.subDays d.deadLetterRetentionDays).isSome = true) :=
  ⟨fun _ => jobRetention.deletesEligible_of_spares hjobs,
    fun _ => deliveryRetention.deletesEligible_of_spares hdeliveries,
    jobsCleaned_iff hjobs hc hearlier, deliveriesCleaned_iff hdeliveries hd⟩

theorem valid_newYear : DateTime.Valid 2026 1 1 0 0 0 0 := by decide

/-- A cleanup with the default retention. -/
def yearlyCleanup : JobCleanup := ⟨DateTime.ofValid valid_newYear, none, none, false, 1000⟩

/-- A job that failed in 1997. -/
def failedLongAgo : Job :=
  { Job.new 0 .slaComputation ⟨["device-1"], "2026-01"⟩ with
    status := .failure
    finishedAt := some 63000000000000000 }

/-- The failed job is selected, retried, and deleted. -/
def retriedMeanwhile : List (RetentionAction StoredJob ℕ JobCleanup JobWrite) :=
  [.call yearlyCleanup, .move 0 [], .move 0 [], .move 0 [1],
    .write 1 (.retry 63902822400000000 failedLongAgo 1), .move 0 []]

/-- A job that failed on the last day of 2025. -/
def failedYesterday : Job := { failedLongAgo with finishedAt := some 63902822300000000 }

/-- A job to be deleted and one to be retried. -/
def twoFailed : List StoredJob := [⟨1, failedLongAgo⟩, ⟨2, failedYesterday⟩]

/-- The first job is selected and deleted, while the second one is retried. -/
def otherRetried : List (RetentionAction StoredJob ℕ JobCleanup JobWrite) :=
  [.call yearlyCleanup, .move 0 [], .move 0 [], .move 0 [1],
    .write 2 (.retry 63902822400000000 failedYesterday 2), .move 0 []]

/-- The deliveries of 1997, one of them a dead letter, and a delivery of the last day of 2025. -/
def storedDeliveries : List StoredDelivery :=
  [⟨1, .success, 63000000000000000⟩, ⟨2, .deadLetter, 63000000000000000⟩, ⟨3, .failed, 63902822300000000⟩]

def deliveryCleanup : DeliveryCleanup := ⟨DateTime.ofValid valid_newYear, 30, 90, 1000⟩

/-- The first delivery is selected and deleted, while the dead letter is replayed. -/
def deadLetterReplayed : List (RetentionAction StoredDelivery ℕ DeliveryCleanup DeliveryStatus) :=
  [.call deliveryCleanup, .move 0 [1], .write 2 .pending, .move 0 []]

theorem retried_job_deleted : ¬ Guarded jobRetention.step jobRetention.DeletesEligible
    (jobRetention.init [⟨1, failedLongAgo⟩]) retriedMeanwhile := by
  decide +kernel

theorem retention_yearly :
    Guarded jobRetention.step jobRetention.DeletesEligible (jobRetention.init twoFailed) otherRetried ∧
      Guarded deliveryRetention.step deliveryRetention.DeletesEligible (deliveryRetention.init storedDeliveries)
        deadLetterReplayed ∧
      JobsCleaned twoFailed (DateTime.ofValid valid_newYear) yearlyCleanup ∧
      DeliveriesCleaned storedDeliveries deliveryCleanup := by
  have h := retention_iff twoFailed storedDeliveries (DateTime.ofValid valid_newYear) yearlyCleanup
    deliveryCleanup (by decide) (by decide) (by decide) (by decide) (le_refl _)
  refine ⟨h.1 otherRetried (by decide +kernel), h.2.1 deadLetterReplayed (by decide +kernel),
    h.2.2.1.mpr ⟨by decide +kernel, ?_, ?_⟩, h.2.2.2.mpr (by decide +kernel)⟩
  · intro status hstatus row hrow hrowStatus
    have hall : ∀ row ∈ twoFailed, row.job.status = .failure := by
      decide
    rw [← hrowStatus, hall row hrow] at hstatus
    simp at hstatus
  · intro row hrow _ t ht hstart
    exact hstart

end ApexChainx.Jobs
